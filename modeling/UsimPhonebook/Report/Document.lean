import UsimPhonebook.Json.Value
import UsimPhonebook.Report

/-! # Reports as documents

The JSON form of each report.
-/

namespace UsimPhonebook

/-- A linkage: a name alone, or a name over the place of the pointer byte. -/
def Linkage.toJson : Linkage → Json
  | type1 => .string "Type1".toList
  | type2 offset => .object [("Type2".toList, .object [("iap_offset".toList, .ofNat offset)])]

def EntryReport.toJson (r : EntryReport) : Json :=
  .object
    [("index".toList, .ofNat r.index),
     ("block".toList, .ofNat r.block),
     ("ef".toList, .string r.file),
     ("record".toList, .ofNat r.record),
     ("alpha".toList, .string r.alpha),
     ("number".toList, .string r.number),
     ("emails".toList, .array (r.emails.map .string)),
     ("additional_numbers".toList, .array (r.additionalNumbers.map .string))]

def KindCapacity.toJson (c : KindCapacity) : Json :=
  .object
    [("linkage".toList, c.linkage.toJson),
     ("total".toList, .ofOption .ofNat c.total),
     ("blocks".toList, .array (c.blocks.map .ofNat))]

def CapacityReport.toJson (r : CapacityReport) : Json :=
  .object [("email".toList, r.email.toJson), ("anr".toList, r.anr.toJson)]

def BlockReport.toJson (b : BlockReport) : Json :=
  .object
    [("index".toList, .ofNat b.index),
     ("entries".toList, .ofNat b.entries),
     ("files".toList, .object (b.files.map fun (name, file) => (name, .string file)))]

def TableReport.toJson (r : TableReport) : Json :=
  .object
    [("email".toList, r.email.toJson),
     ("anr".toList, r.anr.toJson),
     ("blocks".toList, .array (r.blocks.map BlockReport.toJson))]

end UsimPhonebook
