import DllGraph.Proofs.Image.Rebasing

/-!
# Kinds of Lookup Entries

An entry of a lookup table is a word of 32 or of 64 bits. Its highest bit is the flag of an ordinal.
An entry with the flag has the ordinal in its lowest 16 bits, one without it has the address of a
hint and a name in its lowest 31 bits, and all other bits must be clear. In an entry of 32 bits
without the flag there are no other bits.

Both widths are held in a word of 64 bits, and are told apart by their masks. This module replaces
the masks by arithmetic: an entry holds an ordinal if it is the flag plus a number of 16 bits, it
holds an address if it is a number of 31 bits, and it is malformed otherwise.

## Main definitions

* `LookupEntry.flag`, the flag of an ordinal as a number, and `LookupEntry.Fits`, the values that an
  entry of its width can have;
* `LookupEntry.Splits`, how the entries of one width are told apart.

## Main results

* `and_eq_zero_iff_mod_lt` — what it means that a mask takes nothing of a word;
* `LookupEntry.Fits.ordinal_eq_ok_iff` and `LookupEntry.Fits.hintNameRva_eq_ok_iff` — the two kinds
  of entries;
* `LookupEntry.splits_ofUInt32_ofUInt64` — the entries of both widths.
-/

namespace DllGraph

/-! ### Masks -/

/-- The bits of a mask that has those from `low` up to `high`. -/
theorem testBit_two_pow_sub_two_pow {low high : Nat} (h : low ≤ high) (i : Nat) :
    (2 ^ high - 2 ^ low).testBit i = (decide (low ≤ i) && decide (i < high)) := by
  have hshift : 2 ^ high - 2 ^ low = (2 ^ (high - low) - 1) <<< low := by
    rw [Nat.shiftLeft_eq, Nat.sub_mul, ← Nat.pow_add, Nat.sub_add_cancel h, Nat.one_mul]
  rw [hshift, Nat.testBit_shiftLeft, Nat.testBit_two_pow_sub_one]
  by_cases hi : low ≤ i
  · simp only [hi, decide_true, Bool.true_and, decide_eq_decide]
    omega
  · simp [hi]

/-- A mask of the bits from `low` up to `high` takes nothing of a word if and only if these bits of
the word are clear. -/
theorem and_eq_zero_iff_mod_lt {x mask : UInt64} {low high : Nat} (h : low ≤ high)
    (hmask : mask.toNat = 2 ^ high - 2 ^ low) :
    x &&& mask = 0 ↔ x.toNat % 2 ^ high < 2 ^ low := by
  rw [← UInt64.toNat_inj, UInt64.toNat_and, UInt64.toNat_zero, hmask]
  constructor
  · intro hclear
    refine Nat.lt_pow_two_of_testBit _ fun i hi => ?_
    have hbit : (x.toNat &&& (2 ^ high - 2 ^ low)).testBit i = false := by
      rw [hclear, Nat.zero_testBit]
    rw [Nat.testBit_and, testBit_two_pow_sub_two_pow h, decide_eq_true hi, Bool.true_and] at hbit
    rw [Nat.testBit_mod_two_pow, Bool.and_comm, hbit]
  · intro hlow
    refine Nat.eq_of_testBit_eq fun i => ?_
    rw [Nat.testBit_and, testBit_two_pow_sub_two_pow h, Nat.zero_testBit]
    by_cases hi : low ≤ i
    · have hbit : (x.toNat % 2 ^ high).testBit i = false :=
        Nat.testBit_lt_two_pow
          (Nat.lt_of_lt_of_le hlow (Nat.pow_le_pow_right (by decide) hi))
      rw [Nat.testBit_mod_two_pow, Bool.and_comm] at hbit
      rw [decide_eq_true hi, Bool.true_and, hbit]
    · simp [hi]

namespace LookupEntry

variable {e : LookupEntry} {b : Bytes} {image : Image}

/-! ### The two kinds of entries -/

/-- The flag of an ordinal, as a number. -/
def flag (e : LookupEntry) : Nat :=
  if e.is64Bit then 2 ^ 63 else 2 ^ 31

/-- The value of an entry fits its width, of which the flag is the highest bit. -/
def Fits (e : LookupEntry) : Prop :=
  e.value.toNat < 2 * e.flag

/-- A 32-bit entry fits its width. -/
theorem fits_ofUInt32 (v : UInt32) : (ofUInt32 v).Fits := by
  have hword := v.toNat_lt_size
  rw [UInt32.size] at hword
  simpa [Fits, flag, ofUInt32] using hword

/-- A 64-bit entry fits its width. -/
theorem fits_ofUInt64 (v : UInt64) : (ofUInt64 v).Fits := by
  have hword := v.toNat_lt_size
  rw [UInt64.size] at hword
  simpa [Fits, flag, ofUInt64] using hword

/-- The flag is set in the upper half of the values. -/
theorem Fits.isOrdinal_iff (h : e.Fits) : e.isOrdinal = true ↔ e.flag ≤ e.value.toNat := by
  rw [Fits, flag] at h
  rw [isOrdinal, flag, bne_iff_ne, ne_eq]
  cases hwide : e.is64Bit with
  | true =>
    have hmask : (0x8000000000000000 : UInt64).toNat = 2 ^ 64 - 2 ^ 63 := by decide
    simp only [hwide, if_true] at h ⊢
    rw [and_eq_zero_iff_mod_lt (by decide) hmask]
    omega
  | false =>
    have hmask : (0x80000000 : UInt64).toNat = 2 ^ 32 - 2 ^ 31 := by decide
    simp only [hwide, Bool.false_eq_true, if_false] at h ⊢
    rw [and_eq_zero_iff_mod_lt (by decide) hmask]
    omega

/-- No reserved bit is set if what is below the flag is a number of 16 bits. -/
theorem and_reservedBits_eq_zero_iff :
    e.value &&& e.reservedBits = 0 ↔ e.value.toNat % e.flag < 2 ^ 16 := by
  rw [reservedBits, flag]
  cases e.is64Bit with
  | true =>
    have hmask : (0x7FFFFFFFFFFF0000 : UInt64).toNat = 2 ^ 63 - 2 ^ 16 := by decide
    exact and_eq_zero_iff_mod_lt (by decide) hmask
  | false =>
    have hmask : (0x7FFF0000 : UInt64).toNat = 2 ^ 31 - 2 ^ 16 := by decide
    exact and_eq_zero_iff_mod_lt (by decide) hmask

/-- The mask of an address takes the bits from the 31st up to the flag of 64 bits. -/
theorem and_addressMask_eq_zero_iff {x : UInt64} :
    x &&& 0x7FFFFFFF80000000 = 0 ↔ x.toNat % 2 ^ 63 < 2 ^ 31 := by
  have hmask : (0x7FFFFFFF80000000 : UInt64).toNat = 2 ^ 63 - 2 ^ 31 := by decide
  exact and_eq_zero_iff_mod_lt (by decide) hmask

/-- The flag of an ordinal is the highest bit of one of the two widths. -/
theorem flag_cases (e : LookupEntry) : e.flag = 2 ^ 63 ∨ e.flag = 2 ^ 31 := by
  rw [flag]
  cases e.is64Bit
  · exact .inr rfl
  · exact .inl rfl

namespace Fits

/-- An entry holds an ordinal if it is the flag and the ordinal, and nothing else. -/
theorem ordinal_eq_ok_iff (h : e.Fits) {o : UInt16} :
    e.ordinal = .ok o ↔ e.value.toNat = e.flag + o.toNat := by
  have hcond : (e.isOrdinal && e.value &&& e.reservedBits == 0) = true ↔
      e.flag ≤ e.value.toNat ∧ e.value.toNat % e.flag < 2 ^ 16 := by
    rw [Bool.and_eq_true, h.isOrdinal_iff, beq_iff_eq, and_reservedBits_eq_zero_iff]
  have ho := o.toNat_lt_size
  have hlow : e.value.toUInt16 = o ↔ e.value.toNat % 2 ^ 16 = o.toNat := by
    rw [← UInt16.toNat_inj, UInt64.toNat_toUInt16]
  rw [UInt16.size] at ho
  rw [Fits] at h
  rw [ordinal]
  split
  · next hset =>
    rw [hcond] at hset
    rw [Except.ok.injEq, hlow]
    rcases e.flag_cases with hflag | hflag <;> rw [hflag] at h hset ⊢ <;> omega
  · next hclear =>
    rw [hcond] at hclear
    constructor
    · intro h
      cases h
    · intro hvalue
      rcases e.flag_cases with hflag | hflag <;> rw [hflag] at hclear hvalue <;> omega

/-- An entry holds an address if it is a number of 31 bits. -/
theorem hintNameRva_eq_ok_iff (h : e.Fits) {r : UInt32} :
    e.hintNameRva = .ok r ↔ e.value.toNat = r.toNat ∧ r.toNat < 2 ^ 31 := by
  have hcond : (e.isOrdinal || e.value &&& 0x7FFFFFFF80000000 != 0) = true ↔
      e.flag ≤ e.value.toNat ∨ ¬ e.value.toNat % 2 ^ 63 < 2 ^ 31 := by
    rw [Bool.or_eq_true, h.isOrdinal_iff, bne_iff_ne, ne_eq, and_addressMask_eq_zero_iff]
  have hr := r.toNat_lt_size
  have hlow : e.value.toUInt32 = r ↔ e.value.toNat % 2 ^ 32 = r.toNat := by
    rw [← UInt32.toNat_inj, UInt64.toNat_toUInt32]
  rw [UInt32.size] at hr
  rw [Fits] at h
  rw [hintNameRva]
  split
  · next hset =>
    rw [hcond] at hset
    constructor
    · intro h
      cases h
    · intro hvalue
      rcases e.flag_cases with hflag | hflag <;> rw [hflag] at h hset <;> omega
  · next hclear =>
    rw [hcond] at hclear
    rw [Except.ok.injEq, hlow]
    rcases e.flag_cases with hflag | hflag <;> rw [hflag] at h hclear <;> omega

end Fits

/-- An entry without an ordinal is reported as it is. -/
theorem error_of_ordinal {fault : Fault} (h : e.ordinal = .error fault) :
    fault = .invalidLookupEntry e.value := by
  rw [ordinal] at h
  split at h
  · cases h
  · cases h
    rfl

/-- An entry without the address of a name is reported as it is. -/
theorem error_of_hintNameRva {fault : Fault} (h : e.hintNameRva = .error fault) :
    fault = .invalidLookupEntry e.value := by
  rw [hintNameRva] at h
  split at h
  · cases h
    rfl
  · cases h

/-! ### Decoding -/

/-- An entry that is not flagged has no ordinal. -/
theorem ordinal_of_not_isOrdinal (h : e.isOrdinal = false) :
    e.ordinal = .error (.invalidLookupEntry e.value) := by
  rw [ordinal, h]
  rfl

/-- An entry that is flagged has no address of a name. -/
theorem hintNameRva_of_isOrdinal (h : e.isOrdinal = true) :
    e.hintNameRva = .error (.invalidLookupEntry e.value) := by
  rw [hintNameRva, h]
  rfl

/-- A hint and a name that cannot be read are no fault of the entry. -/
theorem readHintName_ne_invalid (rva : UInt32) (v : UInt64) :
    readHintName b image rva ≠ .error (.invalidLookupEntry v) := by
  intro h
  rw [readHintName, Fault.bind_eq_error_iff] at h
  rcases h with h | ⟨place, -, h⟩
  · rcases Image.error_of_locate h with heq | heq <;> cases heq
  · rw [Fault.bind_eq_error_iff] at h
    rcases h with h | ⟨hint, hhint, h⟩
    · cases (Fault.expect_eq_error_iff.1 h).2
    · -- The hint has been read, so the name starts in the file or right at its end.
      have hle : place.offset + 2 ≤ b.size := by
        rw [← Bytes.fixedWidth_u16?.isSome_iff_le (by decide), Fault.expect_eq_ok_iff.1 hhint]
        rfl
      rw [Fault.bind_eq_error_iff] at h
      rcases h with h | ⟨name, -, h⟩
      · obtain ⟨reason, heq, -⟩ := Image.error_of_readAsciiAt hle h
        cases heq
      · cases h

/-- Only an entry that holds an ordinal is decoded to one. -/
theorem decode_eq_byOrdinal_iff {o : UInt16} :
    e.decode b image = .ok (.byOrdinal o) ↔ e.ordinal = .ok o := by
  cases hflag : e.isOrdinal with
  | true =>
    rw [decode, decodeFrom_of_isOrdinal hflag, Fault.map_eq_ok_iff]
    simp only [ImportedSymbol.byOrdinal.injEq, exists_eq_right]
  | false =>
    rw [decode_of_not_isOrdinal hflag, ordinal_of_not_isOrdinal hflag, Fault.bind_eq_ok_iff]
    constructor
    · rintro ⟨rva, -, h⟩
      obtain ⟨found, -, h⟩ := Fault.map_eq_ok_iff.1 h
      cases h
    · intro h
      cases h

/-- An entry is refused in decoding exactly when it holds neither an ordinal nor an address. -/
theorem decode_eq_invalid_iff {v : UInt64} :
    e.decode b image = .error (.invalidLookupEntry v) ↔
      v = e.value ∧ (∃ fault, e.ordinal = .error fault) ∧
        ∃ fault, e.hintNameRva = .error fault := by
  cases hflag : e.isOrdinal with
  | true =>
    rw [decode, decodeFrom_of_isOrdinal hflag, hintNameRva_of_isOrdinal hflag,
      Fault.map_eq_error_iff]
    constructor
    · intro h
      exact ⟨Fault.invalidLookupEntry.inj (error_of_ordinal h), ⟨_, h⟩, _, rfl⟩
    · rintro ⟨rfl, ⟨fault, h⟩, -⟩
      rw [h, error_of_ordinal h]
  | false =>
    rw [decode_of_not_isOrdinal hflag, ordinal_of_not_isOrdinal hflag, Fault.bind_eq_error_iff]
    constructor
    · rintro (h | ⟨rva, -, h⟩)
      · exact ⟨Fault.invalidLookupEntry.inj (error_of_hintNameRva h), ⟨_, rfl⟩, _, h⟩
      · exact absurd (Fault.map_eq_error_iff.1 h) (readHintName_ne_invalid rva v)
    · rintro ⟨rfl, -, fault, h⟩
      exact .inl (by rw [h, error_of_hintNameRva h])

/-! ### Entries of one width -/

/-- How an entry with some value is told to be an ordinal, to be an address, or to be malformed,
where `flag` is the highest bit of the width of the entry. -/
structure Splits (e : LookupEntry) (flag : Nat) (value : UInt64) : Prop where
  ordinal_iff : ∀ o : UInt16, e.ordinal = .ok o ↔ value.toNat = flag + o.toNat
  hintNameRva_iff : ∀ r : UInt32,
    e.hintNameRva = .ok r ↔ value.toNat = r.toNat ∧ r.toNat < 2 ^ 31
  /-- No entry is both. -/
  apart : ∀ o r, ¬ (e.ordinal = .ok o ∧ e.hintNameRva = .ok r)
  /-- One that is neither is refused, with its value. -/
  refused : (∀ o : UInt16, value.toNat ≠ flag + o.toNat) → ¬ value.toNat < 2 ^ 31 →
    e.ordinal = .error (.invalidLookupEntry value) ∧
      e.hintNameRva = .error (.invalidLookupEntry value)
  decode_byOrdinal_iff : ∀ (b : Bytes) (image : Image) (o : UInt16),
    e.decode b image = .ok (.byOrdinal o) ↔ value.toNat = flag + o.toNat
  decode_invalid_iff : ∀ (b : Bytes) (image : Image) (v : UInt64),
    e.decode b image = .error (.invalidLookupEntry v) ↔
      v = value ∧ (∃ fault, e.ordinal = .error fault) ∧ ∃ fault, e.hintNameRva = .error fault
  /-- An entry with an address stands for the hint and the name at this address. -/
  decode_address : ∀ (b : Bytes) (image : Image) (r : UInt32), value.toNat = r.toNat →
    r.toNat < 2 ^ 31 → e.decode b image = (readHintName b image r).map named

/-- The entries of either width are told apart by their values. -/
theorem Fits.splits (h : e.Fits) : e.Splits e.flag e.value where
  ordinal_iff _ := h.ordinal_eq_ok_iff
  hintNameRva_iff _ := h.hintNameRva_eq_ok_iff
  apart o r := by
    rintro ⟨hordinal, haddress⟩
    have hset := h.ordinal_eq_ok_iff.1 hordinal
    obtain ⟨hvalue, hlow⟩ := h.hintNameRva_eq_ok_iff.1 haddress
    rcases e.flag_cases with hflag | hflag <;> omega
  refused hordinal haddress := by
    constructor
    · cases hresult : e.ordinal with
      | error fault => rw [error_of_ordinal hresult]
      | ok o => exact absurd (h.ordinal_eq_ok_iff.1 hresult) (hordinal o)
    · cases hresult : e.hintNameRva with
      | error fault => rw [error_of_hintNameRva hresult]
      | ok r =>
        obtain ⟨hvalue, hlow⟩ := h.hintNameRva_eq_ok_iff.1 hresult
        exact absurd (hvalue ▸ hlow) haddress
  decode_byOrdinal_iff _ _ _ := decode_eq_byOrdinal_iff.trans h.ordinal_eq_ok_iff
  decode_invalid_iff _ _ _ := decode_eq_invalid_iff
  decode_address b image r hvalue hlow := by
    have hlow' : e.value.toNat < 2 ^ 31 := hvalue ▸ hlow
    have hword : e.value.toUInt32 = r := by
      rw [← UInt32.toNat_inj, UInt64.toNat_toUInt32]
      omega
    rw [decode_of_lt hlow', hword]

/-- The entries of 32 bits and those of 64 bits are told apart by the highest bit of their width and
by the bits that must be clear. An entry of 32 bits without this bit is always an address. -/
theorem splits_ofUInt32_ofUInt64 :
    (∀ v : UInt32, (ofUInt32 v).Splits (2 ^ 31) v.toUInt64) ∧
    (∀ v : UInt64, (ofUInt64 v).Splits (2 ^ 63) v) ∧
    ∀ v : UInt32, (ofUInt32 v).isOrdinal = false → (ofUInt32 v).hintNameRva = .ok v := by
  refine ⟨fun v => (fits_ofUInt32 v).splits, fun v => (fits_ofUInt64 v).splits, fun v hclear => ?_⟩
  have hfits := fits_ofUInt32 v
  rw [Bool.eq_false_iff, ne_eq, hfits.isOrdinal_iff] at hclear
  exact hfits.hintNameRva_eq_ok_iff.2 ⟨rfl, Nat.lt_of_not_le hclear⟩

/-- The same value is an ordinal in an entry of 32 bits, and malformed in one of 64 bits. -/
theorem splits_ofUInt32_ofUInt64_bothWidths :
    (ofUInt32 0x80000007).ordinal = .ok 7 ∧
      (ofUInt64 0x80000007).ordinal = .error (.invalidLookupEntry 0x80000007) ∧
      (ofUInt64 0x80000007).hintNameRva = .error (.invalidLookupEntry 0x80000007) ∧
      (ofUInt32 0x7FFFFFFF).hintNameRva = .ok 0x7FFFFFFF ∧
      (ofUInt64 4252).decode importingFile importingImage =
        (readHintName importingFile importingImage 4252).map named := by
  obtain ⟨hnarrow, hwide, haddress⟩ := splits_ofUInt32_ofUInt64
  have hrefused := (hwide 0x80000007).refused
    (fun o => by
      have hvalue : (0x80000007 : UInt64).toNat = 0x80000007 := by decide
      omega)
    (by decide)
  exact ⟨((hnarrow 0x80000007).ordinal_iff 7).2 (by decide), hrefused.1, hrefused.2,
    haddress 0x7FFFFFFF (by decide),
    (hwide 4252).decode_address importingFile importingImage 4252 (by decide) (by decide)⟩

end LookupEntry

end DllGraph
