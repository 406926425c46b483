import CondParam.Classification

/-!
# Fragments of the generated function

The lines that one conditional parameter contributes to the generated function: its registration,
its initialization, and its refresh for each object from the pipeline. Expressions are copied as
they are; names are written so that PowerShell reads the same name back.
-/

set_option autoImplicit false

namespace CondParam

/-- The indentation of the function's regions. -/
def bodyIndent : Text := "        "

/-- One level of indentation. -/
def indentStep : Text := "    "

/-- Names that can be written without quotes or braces. -/
def isSimpleName (t : Text) : Bool := t.upToFinalNewline Text.isIdentifier

/-- A text with every single quote doubled. -/
def doubleQuotes : Text → Text
  | [] => []
  | c :: cs => if c = '\x27' then c :: c :: doubleQuotes cs else c :: doubleQuotes cs

/-- A name as a single-quoted string. -/
def nameLiteral (name : Text) : Text := .char '\x27' :: doubleQuotes name ++ [.char '\x27']

/-- A reference to the variable of a name. -/
def variableRef (name : Text) : Text :=
  if isSimpleName name then '$' :: name else .concat ["$\x7b", name, "\x7d"]

/-- A name as the key of a hash table. -/
def hashtableKey (name : Text) : Text := if isSimpleName name then name else nameLiteral name

/-- The value that a parameter was bound to. -/
def boundLookup (name : Text) : Text := .concat ["$PSBoundParameters[", nameLiteral name, "]"]

/-- The test whether a parameter was bound. -/
def boundTest (name : Text) : Text :=
  .concat ["$PSBoundParameters.ContainsKey(", nameLiteral name, ")"]

/-- The line that adds an attribute to the collection. -/
def addAttributeLine (indent : Text) : Text :=
  .concat [indent, "$AttributeCollection.Add($Attribute)"]

/-- The line that sets a named argument of an attribute. -/
def NamedArgument.line (indent : Text) (a : NamedArgument) : Text :=
  .concat [indent, "$Attribute.", a.name, " = ", a.value.getD "$true"]

/-- The line that constructs an attribute. -/
def Annotation.constructionLine (indent : Text) (a : Annotation) : Text :=
  .concat [indent, "$Attribute = [", a.tag, "]::new(", .join ", " a.positional, ")"]

/-- The lines that construct an attribute, set its named arguments and add it. -/
def Annotation.lines (indent : Text) (a : Annotation) : List Text :=
  a.constructionLine indent :: a.named.map (·.line indent) ++ [addAttributeLine indent]

/-- What a default sets a variable to; an empty default counts as none. -/
def fallbackOf : Option Text → Text
  | none => "$null"
  | some d => if d.isEmpty then "$null" else d

/-- The type of the collection of a parameter's attributes. -/
def attributeCollectionType : Text := "System.Collections.ObjectModel.Collection[System.Attribute]"

/-- The type of a parameter that is registered at run time. -/
def runtimeParameterType : Text := "System.Management.Automation.RuntimeDefinedParameter"

namespace Conditional

/-- The indentation inside the guard, if there is one. -/
def innerIndent (c : Conditional) : Text :=
  if c.alwaysPresent then bodyIndent else bodyIndent ++ indentStep

/-- The line that opens the guard, unless the condition is empty. -/
def guardOpening (c : Conditional) : List Text :=
  if c.alwaysPresent then [] else [.concat [bodyIndent, "if (", c.condition, ") \x7b"]]

/-- The line that closes the guard, unless the condition is empty. -/
def guardClosing (c : Conditional) : List Text :=
  if c.alwaysPresent then [] else [.concat [bodyIndent, "\x7d"]]

/-- The lines of a plain parameter attribute, unless the parameter has one of its own. -/
def impliedAttributeLines (c : Conditional) : List Text :=
  if c.hasParameterAttribute then []
  else [.concat [c.innerIndent, "$Attribute = [Parameter]::new()"], addAttributeLine c.innerIndent]

/-- The lines that collect the attributes and register the parameter. -/
def registrationBody (c : Conditional) : List Text :=
  [.concat [c.innerIndent, "$AttributeCollection = New-Object -TypeName ",
     nameLiteral attributeCollectionType]] ++
  c.annotations.flatMap (·.lines c.innerIndent) ++
  c.impliedAttributeLines ++
  [.concat [c.innerIndent, "$RuntimeParameter = New-Object -TypeName ", runtimeParameterType,
     " -ArgumentList ", nameLiteral c.name, ", ([", c.resolvedType, "]), $AttributeCollection"],
   .concat [c.innerIndent, "$RuntimeParameterDictionary.Add(", nameLiteral c.name,
     ", $RuntimeParameter)"]]

/-- The lines that register the parameter when its condition holds. -/
def registrationLines (c : Conditional) : List Text :=
  [.concat [bodyIndent, "#region ", c.name]] ++ c.guardOpening ++ c.registrationBody ++
    c.guardClosing ++ [.concat [bodyIndent, "#endregion ", c.name]]

/-- The assignment of the bound value to the parameter's variable, if there is one. -/
def refreshLine (c : Conditional) : Text :=
  .concat [bodyIndent, "if (", boundTest c.name, ") \x7b ", variableRef c.name, " = ",
    boundLookup c.name, " \x7d"]

/-- The line that sets the parameter's variable, to a default without a bound value. -/
def assignmentLine (c : Conditional) (default : Option Text) : Text :=
  .concat [c.refreshLine, " else \x7b ", variableRef c.name, " = ", fallbackOf default, " \x7d"]

end Conditional

end CondParam
