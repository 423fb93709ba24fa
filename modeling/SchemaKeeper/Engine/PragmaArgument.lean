import SchemaKeeper.Engine.PragmaRows

/-!
# Names in questions

A question names its table or index between parentheses, and the engine reads that name from the
text of the statement: a word that is no keyword, a quoted text, or a number with or without a sign.
Three keywords are allowed there all the same. Anything else is a syntax error at the first token
that cannot stand in its place.
-/

namespace SchemaKeeper.Pragma

/-- The name that a question is about. -/
def subject : Pragma → String
  | .tableInfo t => t
  | .indexList t => t
  | .indexInfo i => i

/-- The same question about another name. -/
def about (name : String) : Pragma → Pragma
  | .tableInfo _ => .tableInfo name
  | .indexList _ => .indexList name
  | .indexInfo _ => .indexInfo name

/-- The keywords that are allowed as names here. -/
def allowedKeywords : List String := ["on", "delete", "default"]

/-- Nothing but semicolons follows the statement. -/
def readEnd : List SqlToken → Except SyntaxFault Unit
  | [] => .ok ()
  | t :: rest => if t.spells ";" then readEnd rest else .error t.fault

/-- The closing parenthesis and the end of the statement. -/
def readClosing : List SqlToken → Except SyntaxFault Unit
  | [] => .error .incomplete
  | t :: rest => if t.spells ")" then readEnd rest else .error t.fault

/-- A number behind its sign. -/
def readSigned (sign : String) : List SqlToken → Except SyntaxFault String
  | [] => .error .incomplete
  | t :: rest =>
    if t.kind = .number then (readClosing rest).map fun _ => sign ++ t.value else .error t.fault

/-- The name behind the opening parenthesis. A minus sign belongs to it, a plus sign does not. -/
def readName : List SqlToken → Except SyntaxFault String
  | [] => .error .incomplete
  | t :: rest =>
    if t.isName || t.kind = .number || allowedKeywords.any t.spells then
      (readClosing rest).map fun _ => t.value
    else if t.spells "+" then readSigned "" rest
    else if t.spells "-" then readSigned "-" rest
    else .error t.fault

/-- The question as the engine reads it from its text. -/
def read (p : Pragma) : Except SyntaxFault Pragma :=
  (readName (SqlToken.ofText (p.subject ++ ")"))).map fun name => p.about name

end SchemaKeeper.Pragma
