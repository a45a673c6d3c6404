import DllGraph.Proofs.Image.StoredImports
import Mathlib.Algebra.Group.Nat.Defs

/-!
# Absolute Addresses

Old linkers wrote absolute addresses into the delay-load tables, new ones write addresses relative
to the image base. A record says which ones it has, and everything read through it depends on the
answer: where its name and its lookup table are, and where the entries of the table point.

A record, or an entry, of one kind is turned into the other by adding the image base. This module
proves that nothing else changes: both kinds are read alike, with the same faults, as long as the
sum neither wraps nor reaches the bit that tells an ordinal. The base must not be zero, because that
is what marks relative addresses.

## Main definitions

* `DelayRecord.IsAbsoluteOf`, a record with absolute addresses in place of relative ones;
* `LookupEntry.IsAbsoluteOf`, the same for the entry of a symbol that is imported by name.

## Main results

* `toRva_of_toNat_eq` — a base that has been added is subtracted;
* `readers_absolute_eq_relative` — both kinds of delay-load tables mean the same.
-/

namespace DllGraph

open Bytes

variable {b : Bytes} {image : Image} {base : UInt64}

/-- A base that has been added to an address is subtracted. -/
theorem toRva_of_toNat_eq {address : UInt64} {rva : UInt32}
    (h : address.toNat = rva.toNat + base.toNat) : toRva address base = .ok rva := by
  have hle : base ≤ address := UInt64.le_iff_toNat_le.2 (by omega)
  have hdifference : (address - base).toNat = rva.toNat := by
    rw [UInt64.toNat_sub_of_le _ _ hle, h, Nat.add_sub_cancel]
  have hlt : (address - base).toNat < UInt32.size := hdifference ▸ rva.toNat_lt_size
  have hrva : (address - base).toUInt32 = rva := by
    refine UInt32.toNat_inj.1 ?_
    rw [UInt64.toNat_toUInt32, hdifference]
    exact Nat.mod_eq_of_lt rva.toNat_lt_size
  rw [toRva, if_pos ⟨hle, hlt⟩, hrva]

/-! ### Records -/

namespace DelayRecord

/-- A record has absolute addresses where another one has addresses relative to an image base. -/
structure IsAbsoluteOf (r' r : DelayRecord) (base : UInt64) : Prop where
  relative : r.isRelative = true
  absolute : r'.isRelative = false
  name : r'.name.toNat = r.name.toNat + base.toNat
  nameTable : r'.nameTable.toNat = r.nameTable.toNat + base.toNat

namespace IsAbsoluteOf

variable {r r' : DelayRecord}

/-- An absolute address, seen from the image base, is the relative one, seen from zero. -/
theorem toRva_base (h : r'.IsAbsoluteOf r image.imageBase) {address address' : UInt32}
    (haddress : address'.toNat = address.toNat + image.imageBase.toNat) :
    toRva address'.toUInt64 (r'.base image) = toRva address.toUInt64 (r.base image) := by
  have hbase : r.base image = 0 := if_pos h.relative
  have hbase' : r'.base image = image.imageBase := if_neg (by simp [h.absolute])
  rw [hbase, hbase', toRva_toUInt64]
  exact toRva_of_toNat_eq haddress

/-- The name is read from the same address. -/
theorem dllName_eq (h : r'.IsAbsoluteOf r image.imageBase) :
    r'.dllName b image = r.dllName b image := by
  rw [dllName, dllName, h.toRva_base h.name]

/-- The lookup table is read from the same address, and neither record is without one. -/
theorem entries_eq (h : r'.IsAbsoluteOf r image.imageBase) (htable : r.nameTable ≠ 0)
    (index : Nat) : r'.entries b image index = r.entries b image index := by
  have htable' : r'.nameTable ≠ 0 := by
    intro hzero
    have hsum := h.nameTable
    rw [hzero, UInt32.toNat_zero] at hsum
    exact htable (UInt32.toNat_inj.1 (by rw [UInt32.toNat_zero]; omega))
  rw [entries, entries, if_neg htable, if_neg htable', h.toRva_base h.nameTable]

end IsAbsoluteOf

end DelayRecord

/-! ### Lookup entries -/

namespace LookupEntry

variable {e e' : LookupEntry}

/-- The symbol of a hint and a name. -/
def named (result : UInt16 × String) : ImportedSymbol :=
  .byName result.1 result.2

/-- No address is read from an entry that holds an ordinal. -/
theorem decodeFrom_of_isOrdinal (h : e.isOrdinal = true) (base : UInt64) :
    e.decodeFrom b image base = e.ordinal.map .byOrdinal := by
  rw [decodeFrom, if_pos h]
  cases e.ordinal <;> rfl

/-- An entry without the flag is decoded through its address. -/
theorem decode_of_not_isOrdinal (h : e.isOrdinal = false) :
    e.decode b image = e.hintNameRva >>= fun rva => (readHintName b image rva).map named := by
  rw [decode, decodeFrom, h]
  cases e.hintNameRva with
  | error fault => rfl
  | ok rva =>
    simp only [Bool.false_eq_true, if_false, if_true, Except.map, bind, Except.bind,
      toRva_toUInt64]
    cases readHintName b image rva <;> rfl

/-- An entry with a low value holds the address of a hint and a name, in either width. -/
theorem decode_of_lt (h : e.value.toNat < 2 ^ 31) :
    e.decode b image = (readHintName b image e.value.toUInt32).map named := by
  rw [decode_of_not_isOrdinal (isOrdinal_of_lt h), hintNameRva_of_lt h]
  rfl

/-- An entry with an absolute address is read from the address less the base. -/
theorem decodeFrom_of_toRva {rva : UInt32} (hflag : e.isOrdinal = false) (hbase : base ≠ 0)
    (hrva : toRva e.value base = .ok rva) :
    e.decodeFrom b image base = (readHintName b image rva).map named := by
  rw [decodeFrom, hflag]
  simp only [Bool.false_eq_true, if_false, if_neg hbase, bind, Except.bind, pure, Except.pure, hrva]
  cases readHintName b image rva <;> rfl

/-- An entry has the absolute address of a hint and a name where another one has their address
relative to an image base. The sum stays below the bit that tells an ordinal. -/
structure IsAbsoluteOf (e' e : LookupEntry) (base : UInt64) : Prop where
  is64Bit : e'.is64Bit = e.is64Bit
  low : e.value.toNat < 2 ^ 31
  value : e'.value.toNat = e.value.toNat + base.toNat
  isOrdinal : e'.isOrdinal = false

/-- The hint and the name are read from the same address. -/
theorem IsAbsoluteOf.decodeFrom_eq (h : e'.IsAbsoluteOf e base) (hbase : base ≠ 0) :
    e'.decodeFrom b image base = e.decode b image := by
  have hword : e.value.toUInt32.toNat = e.value.toNat := by
    rw [UInt64.toNat_toUInt32]
    exact Nat.mod_eq_of_lt (Nat.lt_trans h.low (by decide))
  rw [decode_of_lt h.low]
  exact decodeFrom_of_toRva h.isOrdinal hbase (toRva_of_toNat_eq (by rw [hword, h.value]))

end LookupEntry

/-- Delay-load tables with absolute addresses mean the same as those with relative ones. A record is
read alike, be its name and its lookup table there or not; an entry that holds an ordinal is the
same in both kinds of tables; and any other entry is decoded alike, be it well-formed or not. -/
theorem readers_absolute_eq_relative (hpos : 0 < image.imageBase.toNat) :
    (∀ r' r : DelayRecord, r'.IsAbsoluteOf r image.imageBase → r.nameTable ≠ 0 →
      r'.dllName b image = r.dllName b image ∧
        ∀ index, r'.entries b image index = r.entries b image index) ∧
    (∀ e : LookupEntry, e.isOrdinal = true →
      e.decodeFrom b image image.imageBase = e.decode b image) ∧
    ∀ e' e : LookupEntry, e'.IsAbsoluteOf e image.imageBase →
      e'.decodeFrom b image image.imageBase = e.decode b image := by
  have hbase : image.imageBase ≠ 0 := fun hzero => by
    rw [hzero, UInt64.toNat_zero] at hpos
    exact Nat.lt_irrefl 0 hpos
  refine ⟨fun r' r h htable => ⟨h.dllName_eq, h.entries_eq htable⟩, fun e he => ?_,
    fun e' e h => h.decodeFrom_eq hbase⟩
  rw [LookupEntry.decode, LookupEntry.decodeFrom_of_isOrdinal he,
    LookupEntry.decodeFrom_of_isOrdinal he]

/-- A delay-load table with one entry, which is imported by name, and all addresses absolute but for
the image base `4194304`. -/
def absoluteFile : Bytes :=
  fileOf false [] 18
    (tableBytes LookupEntry.bytes ⟨0, false⟩ [⟨4194304 + 4110, false⟩] ++
      textBytes "B.dll" ++ [0] ++ ofWord 2 3 ++ textBytes "f" ++ [0])

/-- The image of that file, with its base. -/
def absoluteImage : Image :=
  { imageOf false [] 18 18 with imageBase := 4194304 }

/-- The record of that table. -/
def absoluteRecord : DelayRecord :=
  ⟨0, 4194304 + 4104, 0, 0, 4194304 + 4096, 0, 0, 0⟩

/-- The name, the entry and the symbol are those that are found at the relative addresses. -/
theorem readers_absolute_eq_relative_absoluteFile :
    absoluteRecord.dllName absoluteFile absoluteImage = .ok "B.dll" ∧
      absoluteRecord.entries absoluteFile absoluteImage 0 = .ok [⟨4194304 + 4110, false⟩] ∧
      LookupEntry.decodeFrom ⟨4194304 + 4110, false⟩ absoluteFile absoluteImage 4194304 =
        .ok (.byName 3 "f") := by
  have hpos : 0 < absoluteImage.imageBase.toNat := by decide
  obtain ⟨hrecord, -, hentry⟩ := readers_absolute_eq_relative (b := absoluteFile) hpos
  have hrecordOf : absoluteRecord.IsAbsoluteOf ⟨1, 4104, 0, 0, 4096, 0, 0, 0⟩
      absoluteImage.imageBase := ⟨by decide, by decide, by decide, by decide⟩
  have hentryOf : LookupEntry.IsAbsoluteOf ⟨4194304 + 4110, false⟩ ⟨4110, false⟩
      absoluteImage.imageBase := ⟨rfl, by decide, by decide, by decide⟩
  obtain ⟨hname, hentries⟩ := hrecord _ _ hrecordOf (by decide)
  refine ⟨hname.trans ?_, (hentries 0).trans ?_, (hentry _ _ hentryOf).trans ?_⟩
  all_goals exact Fault.eq_ok_of_toOption (by decide +kernel)

end DllGraph
