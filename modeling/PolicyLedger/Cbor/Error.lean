namespace PolicyLedger

/-- Why bytes are not the payload they should be. -/
inductive DecodeError where
  /-- The bytes end before the payload does. -/
  | endOfInput
  /-- Bytes that stand for nothing, and where they do. -/
  | malformed (position : Nat)
  /-- A value of another kind than the payload needs. -/
  | unexpected (position : Option Nat) (description : String)
  | tooDeep
  /-- The payload is a `found` event, recorded as another. -/
  | schemaMismatch (recorded found : String)
  deriving DecidableEq

def DecodeError.message : DecodeError → String
  | endOfInput => "could not read payload bytes: failed to fill whole buffer"
  | malformed position => "invalid payload bytes at position " ++ toString position
  | unexpected position description =>
    let place := match position with
      | none => "None"
      | some position => "Some(" ++ toString position ++ ")"
    "unexpected payload value at position " ++ place ++ ": " ++ description
  | tooDeep => "payload nested too deeply"
  | schemaMismatch recorded found => "record of type " ++ recorded ++ " contains " ++ found ++ " payload"

end PolicyLedger
