import Introspect.Toml.Value

/-!
TOML documents. Headers and dotted keys open tables; a table is defined at most once, and what
opened it decides what may still be added to it.
-/
namespace Introspect.Toml

/-- What opened a table. -/
inductive Origin where
  /-- Its own header, or the start of the document. -/
  | header
  /-- A header of a table inside it. -/
  | path
  /-- A dotted key. -/
  | dotted
deriving DecidableEq

/-- What a name in a table stands for. -/
inductive Item where
  | value (v : Value)
  | table (origin : Origin) (entries : List (String × Item))
  /-- Tables of one name, each with a header of its own; the latest can be added to. -/
  | tables (latest : List (String × Item)) (earlier : List (List (String × Item)))

/-- The names in a table. -/
abbrev Entries := List (String × Item)

namespace Item

mutual

def toValue : Item → Value
  | value v => v
  | table _ entries => .table (toEntries entries)
  | tables latest earlier => .array (toTables earlier [.table (toEntries latest)])

def toEntries : List (String × Item) → List (String × Value)
  | [] => []
  | (name, i) :: rest => (name, toValue i) :: toEntries rest

/-- The values of tables, given latest first, before those of `later`. -/
def toTables : List (List (String × Item)) → List Value → List Value
  | [], later => later
  | entries :: rest, later => toTables rest (.table (toEntries entries) :: later)

end

end Item

namespace Entries

/-- Gives a value to a name, in its place if it has one already. -/
def put (name : String) (i : Item) (entries : Entries) : Entries :=
  if (entries.lookup name).isSome then entries.map fun p => if p.1 = name then (name, i) else p
  else entries ++ [(name, i)]

def erase (name : String) (entries : Entries) : Entries :=
  entries.filter fun p => p.1 != name

/-- Applies `change` to the table at a path, which is opened as far as needed. A value on the path
cannot be entered, and a dotted key cannot enter a table that has a header of its own. -/
def alterAt (origin : Origin) (change : Origin → Entries → Option Entries) :
    List String → Origin → Entries → Option Entries
  | [], here, entries => change here entries
  | name :: path, _, entries =>
    match entries.lookup name with
    | none =>
      (alterAt origin change path origin []).map fun inner =>
        put name (.table origin inner) entries
    | some (.table inside inner) =>
      if origin = .dotted ∧ inside = .header then none
      else
        (alterAt origin change path inside inner).map fun inner =>
          put name (.table inside inner) entries
    | some (.tables latest earlier) =>
      (alterAt origin change path .header latest).map fun latest =>
        put name (.tables latest earlier) entries
    | some (.value _) => none

/-- Adds an assignment to a table. The table that a dotted key leads to has to be one that dotted
keys opened. -/
def assign? (path : List String) (v : Value) (entries : Entries) : Option Entries :=
  match path.getLast? with
  | none => none
  | some name =>
    let table := path.dropLast
    let change (here : Origin) (inner : Entries) : Option Entries :=
      if (!table.isEmpty && here != .dotted) || (inner.lookup name).isSome then none
      else some (inner ++ [(name, .value v)])
    alterAt .dotted change table .header entries

end Entries

/-- A document part way through: the tables that are finished, and the one that assignments go to
now. -/
structure Document where
  root : Entries
  path : List String
  /-- Whether the current table is one of several of its name. -/
  repeated : Bool
  current : Entries

namespace Document

def start : Document :=
  ⟨[], [], false, []⟩

/-- Puts the current table into its place. -/
def finish? (d : Document) : Option Entries :=
  match d.path.getLast? with
  | none => some d.current
  | some name =>
    let change (_ : Origin) (inner : Entries) : Option Entries :=
      match d.repeated, inner.lookup name with
      | false, none => some (inner.put name (.table .header d.current))
      | false, some (.table origin _) =>
        if origin = .header then none else some (inner.put name (.table .header d.current))
      | true, none => some (inner.put name (.tables d.current []))
      | true, some (.tables latest earlier) =>
        some (inner.put name (.tables d.current (latest :: earlier)))
      | _, _ => none
    d.root.alterAt .path change d.path.dropLast .header

/-- The table at a path, as a header of one table finds it: absent, or opened by other headers
only. -/
def opened? (path : List String) (root : Entries) : Option (Entries × Entries) :=
  match path.getLast? with
  | none => none
  | some name =>
    let parent := path.dropLast
    -- The entries of the table are first read, then taken out of their place.
    let found := lookupAt parent root >>= fun inner => inner.lookup name
    let taken := root.alterAt .path (fun _ inner => some (inner.erase name)) parent .header
    match found, taken with
    | none, some root => some ([], root)
    | some (.table .path entries), some root => some (entries, root)
    | _, _ => none
where
  lookupAt : List String → Entries → Option Entries
    | [], entries => some entries
    | name :: path, entries =>
      match entries.lookup name with
      | some (.table _ inner) => lookupAt path inner
      | some (.tables latest _) => lookupAt path latest
      | _ => none

/-- Whether the name at the end of a path can be that of several tables. -/
def admitsTables (path : List String) (root : Entries) : Bool :=
  match path.getLast? with
  | none => false
  | some name =>
    let change (_ : Origin) (inner : Entries) : Option Entries :=
      match inner.lookup name with
      | none | some (.tables ..) => some inner
      | _ => none
    (root.alterAt .path change path.dropLast .header).isSome

/-- Goes on with the table of a header. -/
def enter? (d : Document) (path : List String) (repeated : Bool) : Option Document := do
  let root ← d.finish?
  if repeated then
    if admitsTables path root then return ⟨root, path, true, []⟩ else none
  else
    let (current, root) ← opened? path root
    return ⟨root, path, false, current⟩

def assign? (d : Document) (path : List String) (v : Value) : Option Document :=
  (d.current.assign? path v).map fun current => { d with current }

/-! ### Reading -/

/-- The rest of a line after its expression: blanks and a comment. -/
def endLine? (cs : List Char) : Option (List Char) :=
  match dropComment (dropBlanks cs) with
  | [] => some []
  | rest => newline? rest

/-- The header of a table, after its first bracket. -/
def header? (d : Document) (cs : List Char) : Option (Document × List Char) := do
  match cs with
  | '[' :: rest =>
    let (path, rest) ← key? limit rest
    match rest with
    | ']' :: ']' :: rest => return (← d.enter? path true, ← endLine? rest)
    | _ => none
  | rest =>
    let (path, rest) ← key? limit rest
    match rest with
    | ']' :: rest => return (← d.enter? path false, ← endLine? rest)
    | _ => none

/-- One expression, up to the end of its line. -/
def line? (d : Document) (cs : List Char) : Option (Document × List Char) :=
  match cs with
  | '[' :: rest => d.header? rest
  | _ => do
    let ((path, v), rest) ← assignment? (value? limit) cs
    return (← d.assign? path v, ← endLine? rest)

/-- Reads lines to the end of a text. -/
def lines? : Nat → Document → List Char → Option Document
  | 0, _, _ => none
  | steps + 1, d, cs =>
    match endLine? cs with
    | some [] => some d
    | some rest => lines? steps d rest
    | none =>
      match d.line? (dropBlanks cs) with
      | some (d, []) => some d
      | some (d, rest) => lines? steps d rest
      | none => none

/-- The entries of the table that a text stands for. A byte order mark may come first. -/
def ofText? (text : String) : Option (List (String × Value)) :=
  let cs := text.toList
  let cs := match cs with
    | '\ufeff' :: rest => rest
    | _ => cs
  ((lines? (cs.length + 1) start cs).bind finish?).map Item.toEntries

end Document
end Introspect.Toml
