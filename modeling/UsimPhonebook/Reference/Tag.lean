/-! # Kinds of fields, and file tags

Besides its name and number an entry can have an email address and an additional number. Both live
in files of their own, one record for each value.

The tags `0xC0` to `0xCB` by which a reference record names the files of its block.
-/

namespace UsimPhonebook

inductive FieldKind
  | email
  | anr
  deriving DecidableEq, Repr

namespace FieldKind

/-- Every kind, in the order in which a block is loaded. -/
def all : List FieldKind := [email, anr]

def name : FieldKind → String
  | email => "email"
  | anr => "additional number"

theorem mem_all (kind : FieldKind) : kind ∈ all := by cases kind <;> simp [all]

end FieldKind

/-- The role of a file in its block. -/
inductive FileTag
  | adn
  | iap
  | ext1
  | sne
  | anr
  | pbc
  | grp
  | aas
  | gsd
  | uid
  | email
  | ccp1
  deriving DecidableEq, Repr

namespace FileTag

def all : List FileTag := [adn, iap, ext1, sne, anr, pbc, grp, aas, gsd, uid, email, ccp1]

/-- The place of the tag in `all`. -/
def ordinal : FileTag → Nat
  | adn => 0
  | iap => 1
  | ext1 => 2
  | sne => 3
  | anr => 4
  | pbc => 5
  | grp => 6
  | aas => 7
  | gsd => 8
  | uid => 9
  | email => 10
  | ccp1 => 11

def byte (t : FileTag) : UInt8 := UInt8.ofNat (0xC0 + t.ordinal)

def ofByte? (b : UInt8) : Option FileTag := all.find? (·.byte == b)

def name : FileTag → String
  | adn => "ADN"
  | iap => "IAP"
  | ext1 => "EXT1"
  | sne => "SNE"
  | anr => "ANR"
  | pbc => "PBC"
  | grp => "GRP"
  | aas => "AAS"
  | gsd => "GSD"
  | uid => "UID"
  | email => "EMAIL"
  | ccp1 => "CCP1"

/-- The tag under which a block names the file of a kind. -/
def ofKind : FieldKind → FileTag
  | .email => email
  | .anr => anr

instance : LT FileTag := ⟨fun a b => a.ordinal < b.ordinal⟩

instance : DecidableLT FileTag := fun a b => inferInstanceAs (Decidable (a.ordinal < b.ordinal))

theorem mem_all (t : FileTag) : t ∈ all := by cases t <;> simp [all]

@[simp] theorem ofByte?_byte (t : FileTag) : ofByte? t.byte = some t := by cases t <;> decide

theorem byte_of_ofByte? {b : UInt8} {t : FileTag} (h : ofByte? b = some t) : t.byte = b := by
  simpa using List.find?_some h

end FileTag

end UsimPhonebook
