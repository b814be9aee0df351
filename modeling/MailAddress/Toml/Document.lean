import MailAddress.Toml.Reader

/-!
# Documents

A document is a sequence of lines, each of which is empty or holds a statement.  A *heading*
`[path]` opens a table, a heading `[[path]]` adds a table to an array and opens it, and an *entry*
sets a value in the open table.  An entry with a key of several parts sets it in a table further
down.  A path that meets an array goes on in its last item.

A table is made only once.  The document therefore keeps *marks*.

* A path is *defined* once a heading has named it.  It is also defined once the key of an entry has
  passed through it, but only from the next heading on, so that several entries under one heading
  may share the tables they make.
* A path is *closed* once an entry has set an array or an inline table there.  All paths below it
  are closed too.

A heading `[path]` needs a path that is neither defined nor closed, and defines it.  A heading
`[[path]]` needs a path that is not closed.  It defines the path and forgets all marks below it.  An
entry must not pass through a defined path or end in a closed one, and must not set a value twice.
-/

namespace MailAddress.Toml

/-- The paths that may no longer be opened or changed. -/
structure Marks where
  /-- The paths that a heading may not name. -/
  defined : List Path := []
  /-- The paths whose values may no longer change. -/
  closed : List Path := []

namespace Marks

/-- Whether a path may no longer be named by a heading. -/
def isDefined (marks : Marks) (path : Path) : Bool := marks.defined.contains path

/-- Whether a path lies at or below a closed one. -/
def isClosed (marks : Marks) (path : Path) : Bool :=
  marks.closed.any fun other => other.isPrefixOf path

/-- The marks with more defined paths. -/
def define (marks : Marks) (paths : List Path) : Marks :=
  { marks with defined := paths ++ marks.defined }

/-- The marks with one more closed path. -/
def close (marks : Marks) (path : Path) : Marks := { marks with closed := path :: marks.closed }

/-- The marks without those at or below a path. -/
def forget (marks : Marks) (path : Path) : Marks :=
  ⟨marks.defined.filter fun other => !path.isPrefixOf other,
    marks.closed.filter fun other => !path.isPrefixOf other⟩

end Marks

/-- A document as far as it is read. -/
structure Document where
  /-- The values so far. -/
  root : Table := []
  /-- The path of the open table. -/
  heading : Path := []
  /-- The marks in force. -/
  marks : Marks := {}
  /-- The paths to be defined at the next heading. -/
  pending : List Path := []

namespace Document

/-- The document at a new heading, which brings the pending marks into force. -/
def settle (document : Document) : Document :=
  { document with marks := document.marks.define document.pending, pending := [] }

/-- The document after a heading that opens a table. -/
def openTable (document : Document) (path : Path) : Option Document := do
  if document.marks.isDefined path || document.marks.isClosed path then failure
  let root ← document.root.changeAt true some path
  return { document with root, heading := path, marks := document.marks.define [path] }

/-- The document after a heading that adds a table to an array. -/
def openItem (document : Document) (path : Path) : Option Document := do
  if document.marks.isClosed path then failure
  let name ← path.getLast?
  let root ← document.root.changeAt true (Table.appendTable name) path.dropLast
  let marks := (document.marks.forget path).define [path]
  return { document with root, heading := path, marks }

/-- The paths of the tables between the open one and the value of an entry. -/
def passed (document : Document) (path : Path) : List Path :=
  (List.range (path.length - 1)).map fun n => document.heading ++ path.take (n + 1)

/-- The document after an entry. -/
def add (document : Document) (path : Path) (value : Value) : Option Document := do
  let passed := document.passed path
  let target := document.heading ++ path
  if passed.any document.marks.isDefined || document.marks.isClosed target.dropLast then failure
  let name ← path.getLast?
  let root ←
    document.root.changeAt true (fun table => table.insertNew name value) target.dropLast
  let marks := if value.isContainer then document.marks.close target else document.marks
  return { document with root, marks, pending := passed ++ document.pending }

open Reader in
/-- The document after a statement, which starts with the given character. -/
def statement (document : Document) (first : Char) : Reader Document := do
  if isBareKeyChar first || first == '"' || first == '\'' then
    let (path, value) ← entry
    (document.add path value : Option Document)
  else if ← accept ['[', '['] then
    skipWhile isBlank
    let opened ← (document.settle.openItem (← key) : Option Document)
    expect [']', ']']
    return opened
  else
    expect ['[']
    skipWhile isBlank
    let opened ← (document.settle.openTable (← key) : Option Document)
    expect [']']
    return opened

open Reader in
/-- The document after at most `bound` more lines. -/
def linesWithin : (bound : Nat) → Document → Reader Document
  | 0, document => return document
  | bound + 1, document => do
      skipWhile isBlank
      match ← peek? with
      | none => return document
      | some first =>
          let next ←
            if first == '\n' || first == '#' then pure document else document.statement first
          skipWhile isBlank
          skipComment
          match ← peek? with
          | none => return next
          | some _ =>
              expect ['\n']
              linesWithin bound next

end Document

/-- Every carriage return before a line feed is dropped. -/
def joinLineEnds : Text → Text
  | '\r' :: '\n' :: rest => '\n' :: joinLineEnds rest
  | c :: rest => c :: joinLineEnds rest
  | [] => []

/-- The table that a text describes. -/
def read? (text : Text) : Option Table :=
  let lines := joinLineEnds text
  ((Document.linesWithin lines.length {}).run lines).map fun (document, _) => document.root

example : (read? "[a]\nb.c = 1\n[a.b]\n".toList).isNone = true := by decide +kernel

example : ((read? "[[a]]\nx = 1\n[[a]]\n".toList).map (Value.text ∘ Value.table)) =
    some "\x7b'a': [\x7b'x': 1\x7d, \x7b\x7d]\x7d".toList := by
  decide +kernel

end MailAddress.Toml
