/-!
UTF-8, read strictly: no overlong forms, no surrogates, nothing above U+10FFFF.
-/
namespace PolicyLedger.Utf8

def encodeChar (c : Char) : List UInt8 :=
  let n := c.toNat
  if n < 0x80 then [n.toUInt8]
  else if n < 0x800 then [(0xc0 + n / 0x40).toUInt8, (0x80 + n % 0x40).toUInt8]
  else if n < 0x10000 then
    [(0xe0 + n / 0x1000).toUInt8, (0x80 + n / 0x40 % 0x40).toUInt8, (0x80 + n % 0x40).toUInt8]
  else
    [(0xf0 + n / 0x40000).toUInt8, (0x80 + n / 0x1000 % 0x40).toUInt8, (0x80 + n / 0x40 % 0x40).toUInt8,
      (0x80 + n % 0x40).toUInt8]

def encode (cs : List Char) : List UInt8 := cs.flatMap encodeChar

/-- The six bits a continuation byte carries. -/
def tail? (b : UInt8) : Option Nat := if 0x80 ≤ b.toNat ∧ b.toNat < 0xc0 then some (b.toNat - 0x80) else none

/-- The character of a code point at least `least`, with the number of bytes that follow its first. -/
def character? (least n more : Nat) : Option (Char × Nat) :=
  if valid : n.isValidChar then if least ≤ n then some (Char.ofNatAux n valid, more) else none else none

/-- The character whose bytes are `a` and the first of the others. -/
def decodeChar? (a : UInt8) (others : List UInt8) : Option (Char × Nat) :=
  let lead := a.toNat
  if lead < 0x80 then character? 0 lead 0
  else if lead < 0xc0 then none
  else
    match others with
    | [] => none
    | b :: others =>
      if lead < 0xe0 then do character? 0x80 ((lead - 0xc0) * 0x40 + (← tail? b)) 1
      else
        match others with
        | [] => none
        | c :: others =>
          if lead < 0xf0 then do character? 0x800 ((lead - 0xe0) * 0x1000 + (← tail? b) * 0x40 + (← tail? c)) 2
          else
            match others with
            | [] => none
            | d :: _ =>
              if lead < 0xf8 then do
                character? 0x10000
                  ((lead - 0xf0) * 0x40000 + (← tail? b) * 0x1000 + (← tail? c) * 0x40 + (← tail? d)) 3
              else none

/-- The characters bytes start with, and the bytes from the first that continues none. -/
def decode : List UInt8 → List Char × List UInt8
  | [] => ([], [])
  | a :: others =>
    match decodeChar? a others with
    | none => ([], a :: others)
    | some (c, more) =>
      let (cs, left) := decode (others.drop more)
      (c :: cs, left)
termination_by bytes => bytes.length
decreasing_by simp only [List.length_drop, List.length_cons]; omega

end PolicyLedger.Utf8
