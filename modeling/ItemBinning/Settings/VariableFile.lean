import ItemBinning.Table
import ItemBinning.Text.Blank

/-!
# Variable files

A variable file assigns texts to environment variables, one on a line:
`NAME=text`, with the word `export` in front if one likes.  The text may stand
between quotes; outside of quotes a comment begins with a hash after a blank.
A line without an equals sign names a variable and assigns nothing.  In a text,
a variable in braces after a dollar sign stands for its value, or for a default
that follows its name.
-/

namespace ItemBinning.VariableFile

open Text

/-- The text between a quote and its next occurrence. -/
def quotedText? (quote : Char) (text : List Char) : Option (List Char) :=
  match text.span (· != quote) with
  | (inside, _ :: _) => some inside
  | (_, []) => none

/-- The text in front of a comment; the flag says whether a blank or nothing
stands before it. -/
def beforeComment (afterBlank : Bool) : List Char → List Char
  | [] => []
  | first :: rest =>
      if afterBlank && first == '#' then []
      else first :: beforeComment (isBlank first) rest

/-- The text that is assigned. -/
def assignedText (text : List Char) : List Char :=
  let bare := trim isBlank (beforeComment true text)
  match trim isBlank text with
  | quote :: rest =>
      if quote == '\'' || quote == '"' then
        (quotedText? quote rest).getD bare
      else bare
  | [] => []

/-- The characters of a line without the word `export` in front. -/
def withoutExport (line : List Char) : List Char :=
  let word := "export ".toList
  if word.isPrefixOf line then trim isBlank (line.drop word.length) else line

/-- Variables with the texts assigned to them; one without a text stays as it
is. -/
abbrev Assignments := List (String × Option String)

/-- The variable that a line names and its text. -/
def assignment? (line : List Char) : Option (String × Option String) :=
  match (withoutExport (trim isBlank line)).span (· != '=') with
  | ([], _) => none
  | ('#' :: _, _) => none
  | (name, _ :: text) =>
      some (String.ofList (trim isBlank name),
        some (String.ofList (assignedText text)))
  | (name, []) => some (String.ofList (trim isBlank name), none)

def read (text : String) : Assignments :=
  (text.splitOn "\n").filterMap fun line => assignment? line.toList

/-- Split a reference to a variable off a text that begins behind its opening
brace: the name, the default if there is one, and what follows the brace. -/
def splitReference? (text : List Char) :
    Option (List Char × Option (List Char) × List Char) :=
  match text.span fun character => character != '}' && character != ':' with
  | (name, '}' :: after) => some (name, none, after)
  | (name, ':' :: '-' :: rest) =>
      match rest.span (· != '}') with
      | (absent, _ :: after) => some (name, some absent, after)
      | (_, []) => none
  | _ => none

/-- Put the values of variables in place of the references to them.  The number
bounds the steps. -/
def resolveWithin (value : String → Option (List Char)) :
    Nat → List Char → List Char
  | 0, text => text
  | _, [] => []
  | bound + 1, '$' :: '\x7b' :: rest =>
      match splitReference? rest with
      | some (name, absent, after) =>
          (value (String.ofList name)).getD (absent.getD []) ++
            resolveWithin value bound after
      | none => '$' :: resolveWithin value bound ('\x7b' :: rest)
  | bound + 1, first :: rest => first :: resolveWithin value bound rest

def resolve (value : String → Option String) (text : String) : String :=
  String.ofList <|
    resolveWithin (fun name => (value name).map String.toList) text.length
      text.toList

/-- Resolve the texts of assignments in order.  A reference stands for the text
of an earlier assignment, where no text is an empty one, else for the variable
of the environment. -/
def resolveAll (environment : Table String String) (assigned : Assignments) :
    Assignments :=
  (assigned.foldl (fun (known, resolved) (name, text) =>
      let value := text.map
        (resolve fun other => (known.find? other).map (·.getD ""))
      (known.put name value, resolved ++ [(name, value)]))
    (environment.mapValues fun _ text => some text, [])).2

/-- Set a variable to the text assigned to it, if there is one. -/
def setVariable (environment : Table String String) :
    String × Option String → Table String String
  | (name, some text) => environment.put name text
  | (_, none) => environment

/-- The environment with the variables of a file put over it.  Of several
assignments to a variable the last one counts. -/
def applyTo (environment : Table String String) (assigned : Assignments) :
    Table String String :=
  (Table.ofList (resolveAll environment assigned)).entries.foldl setVariable
    environment

end ItemBinning.VariableFile
