import Scan.Format.Toml.Scalar

/-!
# Settings in TOML

Lines that give values to keys, under headers that name tables. A key with dots names a value in
nested tables. What has been given may not be given again: a value is closed, a table has one
header, and keys with dots may only add to tables that have none.
-/

namespace Scan.Format.Toml

open Parse

/-! ## Trees -/

/-- What a key stands for. -/
inductive Item where
  | value (setting : Setting)
  /-- A table. `isOpen` tells that it has no header yet, `isDotted` that keys with dots have made
  it. -/
  | table (isOpen isDotted : Bool) (entries : List (String × Item))
  /-- A list of tables, each under a header of its own. -/
  | tables (earlier : List (List (String × Item))) (last : List (String × Item))
  deriving Inhabited

/-- Keys with what they stand for. -/
abbrev Entries := List (String × Item)

/-- What a key stands for among some entries. -/
def find? (entries : Entries) (key : String) : Option Item :=
  (entries.find? fun entry => entry.1 == key).map Prod.snd

/-- The entries with a key that stands for an item from now on. -/
def put (entries : Entries) (key : String) (item : Item) : Entries :=
  entries.filter (fun entry => entry.1 != key) ++ [(key, item)]

/-- Changes the entries at the end of a path. Tables on the way that are not there are made. -/
def change (isDotted : Bool) (act : Entries → Option Entries) :
    List String → Entries → Option Entries
  | [], entries => act entries
  | key :: path, entries =>
      match find? entries key with
      | none => do
          return put entries key (.table true isDotted (← change isDotted act path []))
      | some (.table isOpen wasDotted inner) =>
          if isDotted && !isOpen then none
          else do
            return put entries key (.table isOpen wasDotted (← change isDotted act path inner))
      | some (.tables earlier last) =>
          if isDotted then none
          else do return put entries key (.tables earlier (← change isDotted act path last))
      | some (.value _) => none

/-- Gives a value to a key. -/
def assign (keys : List String) (setting : Setting) (entries : Entries) : Option Entries := do
  let key ← keys.getLast?
  let act (entries : Entries) : Option Entries :=
    match find? entries key with
    | none => some (put entries key (.value setting))
    | some _ => none
  change true act keys.dropLast entries

/-- Puts a table under a header. -/
def openTable (keys : List String) (entries : Entries) : Option Entries := do
  let key ← keys.getLast?
  let act (entries : Entries) : Option Entries :=
    match find? entries key with
    | none => some (put entries key (.table false false []))
    | some (.table true false inner) => some (put entries key (.table false false inner))
    | some _ => none
  change false act keys.dropLast entries

/-- Puts one more table into a list of tables under a header. -/
def openListed (keys : List String) (entries : Entries) : Option Entries := do
  let key ← keys.getLast?
  let act (entries : Entries) : Option Entries :=
    match find? entries key with
    | none => some (put entries key (.tables [] []))
    | some (.tables earlier last) => some (put entries key (.tables (earlier ++ [last]) []))
    | some _ => none
  change false act keys.dropLast entries

mutual

/-- The setting that an item is. -/
def Item.toSetting : Item → Setting
  | .value setting => setting
  | .table _ _ entries => .table (Table.ofList (toNamed entries))
  | .tables earlier last =>
      .list (toListed earlier ++ [.table (Table.ofList (toNamed last))])

/-- The names and settings that entries are. -/
def toNamed : List (String × Item) → List (String × Setting)
  | [] => []
  | (name, item) :: rest => (name, item.toSetting) :: toNamed rest

/-- The settings that tables are. -/
def toListed : List (List (String × Item)) → List Setting
  | [] => []
  | entries :: rest => .table (Table.ofList (toNamed entries)) :: toListed rest

end

/-! ## Keys and values -/

/-- Whether a character may stand in a key without quotes. -/
def isKeyChar (c : Char) : Bool :=
  c.isAlphanum || c == '_' || c == '-'

/-- A part of a key. -/
def keyPart : Parse String := do
  match ← peek with
  | some c =>
      if c == '"' || c == '\'' then
        drop 1
        lineText c [] ((← rest).length + 1)
      else
        let found ← takeWhile isKeyChar
        if found.isEmpty then fail else return String.ofList found
  | none => fail

/-- A key: parts with dots between them. -/
def key (fuel : Nat) : Parse (List String) := do
  match fuel with
  | 0 => fail
  | fuel + 1 =>
      skipBlanks
      let part ← keyPart
      skipBlanks
      if ← accept "." then return part :: (← key fuel) else return [part]

mutual

/-- A value. -/
def value (fuel : Nat) : Parse Setting := do
  match fuel with
  | 0 => fail
  | fuel + 1 =>
      match ← peek with
      | some '"' | some '\'' => return .text (← text)
      | some '[' => do
          drop 1
          return .list (← items fuel)
      | some '\x7b' => do
          drop 1
          return .table (Table.ofList (toNamed (← members [] fuel)))
      | _ => word

/-- The items of a list up to its closing bracket. -/
def items (fuel : Nat) : Parse (List Setting) := do
  match fuel with
  | 0 => fail
  | fuel + 1 =>
      let size := (← rest).length
      skipLines size
      if ← accept "]" then return []
      let item ← value fuel
      skipLines size
      if ← accept "," then return item :: (← items fuel)
      if ← accept "]" then return [item] else fail

/-- The entries of a table in braces up to the closing one, after those that are there. -/
def members (entries : Entries) (fuel : Nat) : Parse Entries := do
  match fuel with
  | 0 => fail
  | fuel + 1 =>
      let size := (← rest).length
      skipLines size
      if ← accept "\x7d" then return entries
      let keys ← key size
      expect "="
      skipBlanks
      let entries ← lift (assign keys (← value fuel) entries)
      skipLines size
      if ← accept "," then members entries fuel
      else
        expect "\x7d"
        return entries

end

/-! ## Lines -/

/-- Takes what may stand at the end of a line, and the end itself. -/
def finishLine : Parse Unit := do
  skipBlanks
  skipComment
  unless (← rest).isEmpty || (← acceptBreak) do fail

/-- Reads lines to the end of the text. `header` is the path of the table that they add to. -/
def lines (header : List String) (entries : Entries) (fuel : Nat) : Parse Entries := do
  match fuel with
  | 0 => fail
  | fuel + 1 =>
      let size := (← rest).length + 1
      skipLines size
      if (← rest).isEmpty then return entries
      else if ← accept "[[" then
        let keys ← key size
        expect "]]"
        finishLine
        lines keys (← lift (openListed keys entries)) fuel
      else if ← accept "[" then
        let keys ← key size
        expect "]"
        finishLine
        lines keys (← lift (openTable keys entries)) fuel
      else
        let keys ← key size
        expect "="
        skipBlanks
        let setting ← value size
        finishLine
        lines header (← lift (change false (assign keys setting) header entries)) fuel

/-- The setting of a text. -/
def read (text : String) : Option Setting := do
  let entries ← Parse.run (lines [] [] (text.length + 2)) text
  return .table (Table.ofList (toNamed entries))

end Scan.Format.Toml
