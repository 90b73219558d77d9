namespace PolicyLedger

/-- What is wrong with a policy text. -/
inductive Problem where
  | unexpectedCharacter (c : Char)
  | unterminatedString
  | unterminatedBlock
  | unexpectedEnd
  | expectedKeyword
  | wrongKeyword (expected found : String)
  | expectedString
  | expectedBlock
  | expectedList
  | expectedItem
  | expectedSeparator
  | unknownStatement (word : String)
  | cannotCreate (word : String)
  | cannotDelete (word : String)
  deriving DecidableEq

def Problem.message : Problem → String
  | unexpectedCharacter c => "unexpected character '" ++ c.toString ++ "'"
  | unterminatedString => "unterminated string"
  | unterminatedBlock => "unterminated block"
  | unexpectedEnd => "unexpected end of input"
  | expectedKeyword => "expected keyword"
  | wrongKeyword expected found => "expected \"" ++ expected ++ "\", found \"" ++ found ++ "\""
  | expectedString => "expected string"
  | expectedBlock => "expected block"
  | expectedList => "expected '['"
  | expectedItem => "expected string or ']'"
  | expectedSeparator => "expected ',' or ']'"
  | unknownStatement word => "unknown statement \"" ++ word ++ "\""
  | cannotCreate word => "can not create \"" ++ word ++ "\""
  | cannotDelete word => "can not delete \"" ++ word ++ "\""

/-- A problem and the byte position where it stands. -/
structure SyntaxError where
  position : Nat
  problem : Problem
  deriving DecidableEq

end PolicyLedger
