import PolicyLedger.Language.Problem
import PolicyLedger.Text.Blank

/-!
Tokens of policy texts. Blanks, semicolons and comments separate tokens and are skipped; strings
have no escapes; a block is one token, whatever stands between its braces.
-/
namespace PolicyLedger

inductive TokenKind where
  | word (name : String)
  | string (value : String)
  | openList
  | closeList
  | comma
  | block
  deriving DecidableEq

/-- A token and the bytes it covers, from `start` up to `stop`. -/
structure Token where
  kind : TokenKind
  start : Nat
  stop : Nat
  deriving DecidableEq

namespace Token

def isWordStart (c : Char) : Bool := c.isAlpha || c = '_'
def isWordPart (c : Char) : Bool := c.isAlphanum || c = '_'

/-- Characters of a string up to and with the quote that ends it. -/
def stringLength? : List Char → Option Nat
  | [] => none
  | c :: rest => if c = '"' then some 1 else (stringLength? rest).map (· + 1)

/-- Why a block does not end. -/
inductive Unclosed where
  | block
  | string (quote : Nat)

/-- Characters of a block up to and with the brace that ends it, of which `seen` lie behind. Braces
inside of it nest to `depth`; inside of a string, which began at `quote`, they count for nothing. -/
def blockLength (seen depth : Nat) (quote : Option Nat) : List Char → Except Unclosed Nat
  | [] => .error (match quote with | none => .block | some start => .string start)
  | c :: rest =>
    match quote with
    | some _ => blockLength (seen + 1) depth (if c = '"' then none else quote) rest
    | none =>
      if c = '"' then blockLength (seen + 1) depth (some seen) rest
      else if c = '{' then blockLength (seen + 1) (depth + 1) none rest
      else if c = '}' then
        match depth with
        | 0 => .ok (seen + 1)
        | outer + 1 => blockLength (seen + 1) outer none rest
      else blockLength (seen + 1) depth none rest

/-- The first characters of a text that belong together, and the token they are. -/
structure Lexeme where
  token : Option TokenKind
  /-- How many characters there are besides the first. -/
  more : Nat

/-- The lexeme a text starts with. An error counts characters from there. -/
def lexeme (c : Char) (rest : List Char) : Except (Nat × Problem) Lexeme :=
  if Text.isBlank c || c = ';' then .ok ⟨none, 0⟩
  else if c = '#' then .ok ⟨none, (rest.takeWhile (· ≠ '\n')).length + 1⟩
  else if c = '[' then .ok ⟨some .openList, 0⟩
  else if c = ']' then .ok ⟨some .closeList, 0⟩
  else if c = ',' then .ok ⟨some .comma, 0⟩
  else if c = '"' then
    match stringLength? rest with
    | none => .error (0, .unterminatedString)
    | some length => .ok ⟨some (.string (String.ofList (rest.take (length - 1)))), length⟩
  else if c = '{' then
    match blockLength 0 0 none rest with
    | .error .block => .error (0, .unterminatedBlock)
    | .error (.string quote) => .error (quote + 1, .unterminatedString)
    | .ok length => .ok ⟨some .block, length⟩
  else if isWordStart c then
    let part := rest.takeWhile isWordPart
    .ok ⟨some (.word (String.ofList (c :: part))), part.length⟩
  else .error (0, .unexpectedCharacter c)

/-- The tokens of a text that stands at byte `start`. -/
def scan (start : Nat) : List Char → Except SyntaxError (List Token)
  | [] => .ok []
  | c :: rest =>
    match lexeme c rest with
    | .error (skipped, problem) => .error ⟨start + Text.byteLength ((c :: rest).take skipped), problem⟩
    | .ok ⟨token, more⟩ =>
      let stop := start + Text.byteLength (c :: rest.take more)
      match scan stop (rest.drop more) with
      | .error e => .error e
      | .ok later => .ok (match token with | none => later | some kind => ⟨kind, start, stop⟩ :: later)
termination_by cs => cs.length
decreasing_by simp only [List.length_drop, List.length_cons]; omega

end Token
end PolicyLedger
