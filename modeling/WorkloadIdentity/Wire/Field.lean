/-
# Fields on the wire

A message is written as fields one after the other. Each starts with a key, its
number and the form of its content: a number, four or eight octets, a block with
its length in front, or a group of fields up to the key that closes it. The
messages of the Workload API hold blocks only, so a message reads as the blocks
of its numbers in order; the fields of every other number are passed over, in
groups within groups up to a depth.

Key definitions: `Wire.Form`, `Wire.Use`, `Wire.readBlock`, `Wire.skipGroups`,
`Wire.readFields`, `Wire.writeField`.
-/
import WorkloadIdentity.Text.Utf8
import WorkloadIdentity.Wire.Varint

namespace WorkloadIdentity
namespace Wire

/-- How the content of a field is written. -/
inductive Form where
  | varint
  | octets8
  | block
  | groupStart
  | groupEnd
  | octets4
  deriving DecidableEq, Repr

/-- The forms by their codes. -/
def Form.ofCode? : Nat → Option Form
  | 0 => some varint
  | 1 => some octets8
  | 2 => some block
  | 3 => some groupStart
  | 4 => some groupEnd
  | 5 => some octets4
  | _ => none

/-- The number of a field and the form of its content. -/
structure Key where
  number : Nat
  form : Form
  deriving DecidableEq, Repr

/-- The key in front: thirty-two bits, the lowest three a form, the others a
number that is not zero. -/
def readKey (octets : Bytes) : Option (Key × Bytes) := do
  let (key, rest) ← readVarint octets
  let form ← Form.ofCode? (key % 8)
  if Nat.pow 2 32 ≤ key ∨ key / 8 = 0 then none else some (⟨key / 8, form⟩, rest)

/-- What follows so many octets. -/
def skipOctets (size : Nat) (octets : Bytes) : Option Bytes :=
  if size ≤ octets.length then some (octets.drop size) else none

/-- The block in front. -/
def readBlock (octets : Bytes) : Option (Bytes × Bytes) := do
  let (size, rest) ← readVarint octets
  if size ≤ rest.length then some (rest.take size, rest.drop size) else none

/-- What follows the content of a field that is no group. -/
def skipContent (form : Form) (octets : Bytes) : Option Bytes :=
  match form with
  | .varint => (readVarint octets).map (·.2)
  | .octets8 => skipOctets 8 octets
  | .block => (readBlock octets).map (·.2)
  | .octets4 => skipOctets 4 octets
  | .groupStart | .groupEnd => none

/-- What follows some open groups, given by their numbers with the innermost
first, after at most `count` fields; a field in fewer than `limit` groups may
stand in them. -/
def skipGroups (limit : Nat) : Nat → List Nat → Bytes → Option Bytes
  | _, [], octets => some octets
  | 0, _ :: _, _ => none
  | count + 1, group :: outer, octets => do
    let (key, rest) ← readKey octets
    match key.form with
    | .groupEnd => if key.number = group then skipGroups limit count outer rest else none
    | form =>
      if limit ≤ outer.length + 1 then none
      else if form = .groupStart then skipGroups limit count (key.number :: group :: outer) rest
      else skipGroups limit count (group :: outer) (← skipContent form rest)

/-- What follows a field whose key has been read. -/
def skipField (limit : Nat) (key : Key) (octets : Bytes) : Option Bytes :=
  match key.form with
  | .groupStart => skipGroups limit octets.length [key.number] octets
  | form => skipContent form octets

/-- What a message makes of the fields of a number. -/
inductive Use where
  /-- They are blocks. -/
  | block
  /-- They are entries of a map, read as blocks whatever form their keys
  name. -/
  | entry
  /-- The message does not have them. -/
  | skip
  deriving DecidableEq, Repr

/-- A field that is read: its number and its block. -/
abbrev Field := Nat × Bytes

/-- The fields of some octets, at most `count`. -/
def readSome (use : Nat → Use) (limit : Nat) : Nat → Bytes → Option (List Field)
  | _, [] => some []
  | 0, _ :: _ => none
  | count + 1, octets => do
    let (key, rest) ← readKey octets
    if use key.number = .skip then
      readSome use limit count (← skipField limit key rest)
    else if use key.number = .block ∧ key.form ≠ .block then none
    else
      let (block, rest) ← readBlock rest
      let more ← readSome use limit count rest
      pure ((key.number, block) :: more)

/-- How deep the groups of a message may be nested. -/
def outerLimit : Nat := 100

/-- How deep the groups of a message within a message may be nested. -/
def innerLimit : Nat := 99

/-- The fields of a message. -/
def readFields (use : Nat → Use) (limit : Nat) (octets : Bytes) : Option (List Field) :=
  readSome use limit octets.length octets

/-- The blocks of a number in order. -/
def blocks (number : Nat) (fields : List Field) : List Bytes :=
  fields.filterMap fun (n, block) => if n = number then some block else none

/-- The texts of a number in order, if all its blocks are texts. -/
def texts? (number : Nat) (fields : List Field) : Option (List String) :=
  (blocks number fields).mapM Utf8.decode

/-- The last block of a number; none counts as an empty one. -/
def block (number : Nat) (fields : List Field) : Bytes := (blocks number fields).getLastD []

/-- The last text of a number, if all its blocks are texts. -/
def text? (number : Nat) (fields : List Field) : Option String :=
  (texts? number fields).map (·.getLastD "")

/-- Writes a block under a number. -/
def writeField (number : Nat) (block : Bytes) : Bytes :=
  writeVarint (number * 8 + 2) ++ writeVarint block.length ++ block

/-- Writes each block of a number. -/
def writeEach (number : Nat) (blocks : List Bytes) : Bytes := blocks.flatMap (writeField number)

/-- Writes a block under a number unless it is empty. -/
def writeBlock (number : Nat) (block : Bytes) : Bytes :=
  if block.isEmpty then [] else writeField number block

/-- Writes a text under a number unless it is empty. -/
def writeText (number : Nat) (text : String) : Bytes := writeBlock number (Utf8.encode text)

/-! ### Maps from texts to octets -/

/-- Writes an entry of a map: the key and the value, each unless it is
empty. -/
def writeEntry (entry : String × Bytes) : Bytes := writeText 1 entry.1 ++ writeBlock 2 entry.2

/-- Reads an entry of a map. -/
def readEntry? (octets : Bytes) : Option (String × Bytes) := do
  let fields ← readFields (fun n => if n = 1 ∨ n = 2 then .block else .skip) innerLimit octets
  let key ← text? 1 fields
  pure (key, block 2 fields)

/-- The entries of a number in order. -/
def entries? (number : Nat) (fields : List Field) : Option (List (String × Bytes)) :=
  (blocks number fields).mapM readEntry?

/-- Writes the entries of a map. -/
def writeEntries (number : Nat) (entries : List (String × Bytes)) : Bytes :=
  writeEach number (entries.map writeEntry)

end Wire
end WorkloadIdentity
