/-!
# Maps in order of insertion

A map is its list of entries, oldest first. Storing under a key that is already there replaces the
value where it stands; a new key goes last. Erasing closes the gap.
-/

namespace Nodeflow

/-- A finite map whose entries are kept in order of insertion. -/
structure OrderedMap (κ : Type) (α : Type) where
  entries : Array (κ × α) := #[]
  deriving Repr

namespace OrderedMap

variable {κ α : Type} [DecidableEq κ]

def empty : OrderedMap κ α := ⟨#[]⟩

instance : Inhabited (OrderedMap κ α) := ⟨empty⟩

def size (m : OrderedMap κ α) : Nat := m.entries.size

def keys (m : OrderedMap κ α) : List κ := m.entries.toList.map Prod.fst

def values (m : OrderedMap κ α) : List α := m.entries.toList.map Prod.snd

def any (m : OrderedMap κ α) (test : α → Bool) : Bool := m.entries.any fun entry => test entry.2

def indexOf? (m : OrderedMap κ α) (key : κ) : Option Nat :=
  m.entries.findIdx? fun entry => entry.1 = key

def get? (m : OrderedMap κ α) (key : κ) : Option α :=
  (m.entries.find? fun entry => entry.1 = key).map Prod.snd

def contains (m : OrderedMap κ α) (key : κ) : Bool := (m.indexOf? key).isSome

def insert (m : OrderedMap κ α) (key : κ) (value : α) : OrderedMap κ α :=
  match m.indexOf? key with
  | some i => ⟨m.entries.setIfInBounds i (key, value)⟩
  | none => ⟨m.entries.push (key, value)⟩

def modify (m : OrderedMap κ α) (key : κ) (change : α → α) : OrderedMap κ α :=
  match m.indexOf? key with
  | some i => ⟨m.entries.modify i fun entry => (entry.1, change entry.2)⟩
  | none => m

def erase (m : OrderedMap κ α) (key : κ) : OrderedMap κ α :=
  ⟨m.entries.filter fun entry => entry.1 ≠ key⟩

def filter (m : OrderedMap κ α) (keep : α → Bool) : OrderedMap κ α :=
  ⟨m.entries.filter fun entry => keep entry.2⟩

def insertAll (m : OrderedMap κ α) (entries : List (κ × α)) : OrderedMap κ α :=
  entries.foldl (fun m entry => m.insert entry.1 entry.2) m

def ofList (entries : List (κ × α)) : OrderedMap κ α := empty.insertAll entries

end OrderedMap

end Nodeflow
