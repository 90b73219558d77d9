namespace PolicyLedger.Hex

/-- Two digits to a byte, in lower case. -/
def encode (bytes : List UInt8) : String :=
  String.ofList (bytes.flatMap fun b => [Nat.digitChar (b.toNat / 16), Nat.digitChar (b.toNat % 16)])

def digit? (c : Char) : Option Nat :=
  if '0' ≤ c ∧ c ≤ '9' then some (c.toNat - '0'.toNat)
  else if 'a' ≤ c ∧ c ≤ 'f' then some (c.toNat - 'a'.toNat + 10)
  else none

def ofDigits? : List Char → Option (List UInt8)
  | [] => some []
  | [_] => none
  | high :: low :: rest => do
    return ((← digit? high) * 16 + (← digit? low)).toUInt8 :: (← ofDigits? rest)

def decode? (text : String) : Option (List UInt8) := ofDigits? text.toList

end PolicyLedger.Hex
