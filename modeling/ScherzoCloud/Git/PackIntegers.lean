import Mathlib.Data.Nat.Digits.Defs
import ScherzoCloud.Collections.Gathering

/-!
# The integers of a pack

A pack writes its integers in groups of seven bits, one byte each, and all bytes
but the last have their top bit set.  Sizes have the lowest group first; the distance
of an offset delta has the highest group first, and every further group adds one to
what stands before it.  The decoders work on 64-bit words.

The encodings are read here over unbounded naturals (`varintValue`,
`entryHeaderValue`, `distanceValue`), and the decoders are compared with them.
-/

namespace ScherzoCloud.Git

open Collections

variable {bytes rest : List UInt8} {digits : List Nat}

inductive GitArtifactFailure where
  | header
  | profile
  | pack
  | checksum
  | content
  | structureLimit
  | unavailable
  | scratch
  | interrupted
  deriving DecidableEq, Repr

/-- The low seven bits of a byte. -/
def payload (byte : UInt8) : Nat := (byte &&& 0x7f).toNat

/-- The top bit of a byte: another one follows. -/
def continues (byte : UInt8) : Bool := byte &&& 0x80 != 0

def checkedAdd (value other : Nat) : Except GitArtifactFailure Nat :=
  if value + other < 2 ^ 64 then .ok (value + other) else .error .structureLimit

/-- `u64::checked_shl`: only the distance is checked. -/
def checkedShl (value shift : Nat) : Except GitArtifactFailure Nat :=
  if shift < 64 then .ok ((value <<< shift) % 2 ^ 64) else .error .structureLimit

def checkedShift (value shift : Nat) : Except GitArtifactFailure Nat :=
  if 64 ≤ shift ∨ (2 ^ 64 - 1) >>> shift < value then .error .structureLimit
  else .ok ((value <<< shift) % 2 ^ 64)

/-- The loop that `read_entry_header` and `read_varint` share. -/
def readGroups (value shift : Nat) :
    List UInt8 → Except GitArtifactFailure (Nat × List UInt8)
  | [] => if 64 ≤ shift then .error .structureLimit else .error .pack
  | byte :: rest =>
    if 64 ≤ shift then .error .structureLimit
    else do
      let group ← checkedShift (payload byte) shift
      let value ← checkedAdd value group
      if continues byte then readGroups value (shift + 7) rest else .ok (value, rest)

def readVarint (bytes : List UInt8) : Except GitArtifactFailure (Nat × List UInt8) :=
  readGroups 0 0 bytes

/-- The size of an entry header from its first byte on. -/
def readEntrySize (byte : UInt8) (rest : List UInt8) :
    Except GitArtifactFailure (Nat × List UInt8) :=
  let size := (byte &&& 0x0f).toNat
  if continues byte then readGroups size 4 rest else .ok (size, rest)

def readEntryHeader : List UInt8 → Except GitArtifactFailure ((Nat × Nat) × List UInt8)
  | [] => .error .pack
  | byte :: rest => do
    let kind := ((byte >>> 4) &&& 0x07).toNat
    let (size, rest) ← readEntrySize byte rest
    if kind ∈ [1, 2, 3, 4, 6, 7] then .ok ((kind, size), rest) else .error .pack

/-- The loop of `read_offset_distance`. -/
def readDistance (distance : Nat) : List UInt8 → Except GitArtifactFailure (Nat × List UInt8)
  | [] => .error .pack
  | byte :: rest => do
    let value ← checkedAdd distance 1
    let value ← checkedShl value 7
    let distance ← checkedAdd value (payload byte)
    if continues byte then readDistance distance rest else .ok (distance, rest)

/-- The distance from its first byte on. -/
def readDistanceFrom (byte : UInt8) (rest : List UInt8) :
    Except GitArtifactFailure (Nat × List UInt8) :=
  if continues byte then readDistance (payload byte) rest else .ok (payload byte, rest)

def readOffsetDistance : List UInt8 → Except GitArtifactFailure (Nat × List UInt8)
  | [] => .error .pack
  | byte :: rest => do
    let (distance, rest) ← readDistanceFrom byte rest
    if distance ≠ 0 then .ok (distance, rest) else .error .pack

inductive DeltaBase where
  | entry (index : Nat)
  | oid (oid : List UInt8)
  deriving DecidableEq, Repr

/-- The base of an entry of `parse_pack`, found among the offsets of the entries before. -/
def readDeltaBase (entryOffset : Nat) (offsets : BTreeMap Nat Nat) (kind : Nat)
    (bytes : List UInt8) : Except GitArtifactFailure (Option DeltaBase × List UInt8) :=
  if kind = 6 then do
    let (distance, rest) ← readOffsetDistance bytes
    if distance ≤ entryOffset then
      match offsets.get? (entryOffset - distance) with
      | some index => .ok (some (.entry index), rest)
      | none => .error .pack
    else .error .pack
  else if kind = 7 then
    if bytes.length < 20 then .error .pack
    else .ok (some (.oid (bytes.take 20)), bytes.drop 20)
  else .ok (none, bytes)

/-- The groups of the integer at the head of the bytes, and the bytes after it. -/
def groups : List UInt8 → Option (List Nat × List UInt8)
  | [] => none
  | byte :: rest =>
    if continues byte then (groups rest).map (fun (digits, rest) => (payload byte :: digits, rest))
    else some ([payload byte], rest)

def varintValue (bytes : List UInt8) : Option (Nat × List UInt8) :=
  (groups bytes).map (fun (digits, rest) => (Nat.ofDigits 128 digits, rest))

/-- The size in a header has its lowest four bits in the first byte. -/
def entryHeaderValue : List UInt8 → Option (Nat × List UInt8)
  | [] => none
  | byte :: rest =>
    if continues byte then
      (varintValue rest).map (fun (value, rest) => ((byte &&& 0x0f).toNat + 16 * value, rest))
    else some ((byte &&& 0x0f).toNat, rest)

/-- The value of a distance whose groups before had the value `distance`. -/
def offsetValue (distance : Nat) (digits : List Nat) : Nat :=
  digits.foldl (fun value digit => (value + 1) * 128 + digit) distance

def distanceValue (bytes : List UInt8) : Option (Nat × List UInt8) :=
  (groups bytes).map (fun (digits, rest) => (offsetValue digits.headI digits.tail, rest))

/-- The decoder returns nothing but the value, and fails when that is too large for a word. -/
def ExactAt (value : Option (Nat × List UInt8))
    (decoded : Except GitArtifactFailure (Nat × List UInt8)) : Prop :=
  (∀ result, decoded = .ok result → value = some result) ∧
    ∀ v rest, value = some (v, rest) → 2 ^ 64 ≤ v → ∃ failure, decoded = .error failure

/-- On the way through the groups, before the last one, the word is the largest one. -/
def Saturates (distance : Nat) (digits : List Nat) : Prop :=
  ∃ k < digits.length, offsetValue distance (digits.take k) % 2 ^ 64 = 2 ^ 64 - 1

instance (distance : Nat) (digits : List Nat) : Decidable (Saturates distance digits) :=
  inferInstanceAs (Decidable (∃ k < digits.length, _))

/-- The bits that a distance loses do not matter: there are none, or the lost bits leave
a word that the decoder refuses, at the end of the integer or on the way. -/
def DistanceFits (bytes : List UInt8) : Prop :=
  ∀ digits rest, groups bytes = some (digits, rest) →
    offsetValue digits.headI digits.tail < 2 ^ 64 ∨
    offsetValue digits.headI digits.tail % 2 ^ 64 = 0 ∨ Saturates digits.headI digits.tail

theorem checkedAdd_ok {value other total : Nat} (h : checkedAdd value other = .ok total) :
    total = value + other ∧ total < 2 ^ 64 := by
  unfold checkedAdd at h
  split_ifs at h with hfits
  cases h
  exact ⟨rfl, hfits⟩

theorem checkedShift_ok {value shift shifted : Nat} (h : checkedShift value shift = .ok shifted) :
    shifted = 2 ^ shift * value := by
  unfold checkedShift at h
  split_ifs at h with hfails
  obtain ⟨_, hvalue⟩ := not_or.mp hfails
  cases h
  have hle : value ≤ (2 ^ 64 - 1) / 2 ^ shift := by
    rw [← Nat.shiftRight_eq_div_pow]
    exact Nat.not_lt.mp hvalue
  have hmul : value * 2 ^ shift ≤ 2 ^ 64 - 1 := (Nat.le_div_iff_mul_le (Nat.two_pow_pos _)).mp hle
  rw [Nat.shiftLeft_eq, Nat.mod_eq_of_lt (by omega), Nat.mul_comm]

/-- The loop adds the value of the groups at its shift, and stays within a word. -/
theorem readGroups_ok {value shift : Nat} {result : Nat × List UInt8}
    (h : readGroups value shift bytes = .ok result) :
    ∃ v, varintValue bytes = some (v, result.2) ∧ result.1 = value + 2 ^ shift * v ∧
      result.1 < 2 ^ 64 := by
  induction bytes generalizing value shift with
  | nil =>
    unfold readGroups at h
    split_ifs at h
  | cons byte rest ih =>
    unfold readGroups at h
    by_cases hshift : 64 ≤ shift
    · rw [if_pos hshift] at h
      cases h
    rw [if_neg hshift] at h
    obtain ⟨group, hgroup, h⟩ := bind_eq_ok_iff.mp h
    obtain ⟨total, htotal, h⟩ := bind_eq_ok_iff.mp h
    have hgroup := checkedShift_ok hgroup
    obtain ⟨htotal, hfits⟩ := checkedAdd_ok htotal
    split_ifs at h with hcontinues
    · obtain ⟨v, hv, hresult, hlt⟩ := ih h
      unfold varintValue at hv ⊢
      obtain ⟨⟨digits, rest'⟩, hdigits, hv⟩ := Option.map_eq_some_iff.mp hv
      cases hv
      refine ⟨Nat.ofDigits 128 (payload byte :: digits), ?_, ?_, hlt⟩
      · simp [groups, hcontinues, hdigits]
      · rw [hresult, htotal, hgroup, Nat.ofDigits_cons, Nat.pow_add, Nat.mul_add, Nat.mul_assoc]
        simp only [Nat.reducePow]
        omega
    · cases h
      refine ⟨payload byte, ?_, by rw [htotal, hgroup], hfits⟩
      simp [varintValue, groups, hcontinues]

theorem exactAt_of_ok {value : Option (Nat × List UInt8)}
    {decoded : Except GitArtifactFailure (Nat × List UInt8)}
    (h : ∀ result, decoded = .ok result → value = some result ∧ result.1 < 2 ^ 64) :
    ExactAt value decoded := by
  refine ⟨fun result hresult => (h result hresult).1, fun v rest hv hlarge => ?_⟩
  cases hdecoded : decoded with
  | error failure => exact ⟨failure, rfl⟩
  | ok result =>
    obtain ⟨hresult, hlt⟩ := h result hdecoded
    rw [hv] at hresult
    cases hresult
    omega

theorem readVarint_exact (bytes : List UInt8) : ExactAt (varintValue bytes) (readVarint bytes) := by
  refine exactAt_of_ok fun result h => ?_
  obtain ⟨v, hv, hresult, hlt⟩ := readGroups_ok h
  rw [Nat.zero_add, Nat.pow_zero, Nat.one_mul] at hresult
  exact ⟨by rw [hv, ← hresult], hlt⟩

theorem readEntryHeader_exact (bytes : List UInt8) : ExactAt (entryHeaderValue bytes)
      ((readEntryHeader bytes).map (fun header => (header.1.2, header.2))) := by
  refine exactAt_of_ok fun result h => ?_
  cases bytes with
  | nil => cases h
  | cons byte rest =>
    obtain ⟨header, hheader, rfl⟩ := map_eq_ok_iff.mp h
    obtain ⟨⟨size, tail⟩, hsize, hheader⟩ := bind_eq_ok_iff.mp hheader
    dsimp only at hheader
    split_ifs at hheader
    cases hheader
    dsimp only [readEntrySize] at hsize
    dsimp only [entryHeaderValue]
    split_ifs at hsize ⊢ with hcontinues
    · obtain ⟨v, hv, hvalue, hlt⟩ := readGroups_ok hsize
      dsimp only at hv hvalue
      exact ⟨by rw [hv, hvalue]; rfl, hlt⟩
    · cases hsize
      exact ⟨rfl, lt_of_lt_of_le (byte &&& 0x0f).toNat_lt (by decide)⟩

theorem payload_lt (byte : UInt8) : payload byte < 128 := by
  unfold payload
  rw [UInt8.toNat_and]
  exact lt_of_le_of_lt Nat.and_le_right (by decide)

/-- One turn of the loop. -/
theorem readDistance_cons (distance : Nat) (byte : UInt8) (rest : List UInt8) :
    readDistance distance (byte :: rest) =
      if distance + 1 < 2 ^ 64 then
        if continues byte then
          readDistance (((distance + 1) * 128 + payload byte) % 2 ^ 64) rest
        else .ok (((distance + 1) * 128 + payload byte) % 2 ^ 64, rest)
      else .error .structureLimit := by
  have hpayload := payload_lt byte
  by_cases hfits : distance + 1 < 2 ^ 64
  · -- the shifted word ends in seven zeros, so that the last sum is never refused
    have hshl : checkedShl (distance + 1) 7 = .ok ((distance + 1) * 128 % 2 ^ 64) := by
      simp [checkedShl, Nat.shiftLeft_eq]
    have hadd : checkedAdd ((distance + 1) * 128 % 2 ^ 64) (payload byte) =
        .ok (((distance + 1) * 128 + payload byte) % 2 ^ 64) := by
      unfold checkedAdd
      rw [if_pos (by omega)]
      congr 1
      omega
    have hone : checkedAdd distance 1 = .ok (distance + 1) := if_pos hfits
    simp only [readDistance, hone, hshl, hadd, bind, Except.bind, if_pos hfits]
  · rw [readDistance, checkedAdd, if_neg hfits, if_neg hfits]
    rfl

theorem saturates_cons {distance digit : Nat} : Saturates distance (digit :: digits) ↔
      distance % 2 ^ 64 = 2 ^ 64 - 1 ∨ Saturates ((distance + 1) * 128 + digit) digits :=
  Nat.exists_lt_succ_left

/-- The loop returns the value modulo the word, unless it saturates. -/
theorem readDistance_spec (hgroups : groups bytes = some (digits, rest)) (distance : Nat) :
    readDistance (distance % 2 ^ 64) bytes =
      if Saturates distance digits then .error .structureLimit
      else .ok (offsetValue distance digits % 2 ^ 64, rest) := by
  induction bytes generalizing distance digits with
  | nil => cases hgroups
  | cons byte bytes ih =>
    have hstep : ((distance % 2 ^ 64 + 1) * 128 + payload byte) % 2 ^ 64 =
        ((distance + 1) * 128 + payload byte) % 2 ^ 64 := by omega
    rw [readDistance_cons, hstep]
    unfold groups at hgroups
    by_cases hlast : distance % 2 ^ 64 = 2 ^ 64 - 1
    · have hsaturates : Saturates distance digits := by
        split_ifs at hgroups
        · obtain ⟨_, _, htail⟩ := Option.map_eq_some_iff.mp hgroups
          cases htail
          exact saturates_cons.mpr (.inl hlast)
        · cases hgroups
          exact saturates_cons.mpr (.inl hlast)
      rw [if_neg (by omega), if_pos hsaturates]
    · rw [if_pos (by omega)]
      split_ifs at hgroups ⊢ with hcontinues hsaturates hsaturates
      · obtain ⟨⟨following, rest'⟩, hfollowing, htail⟩ := Option.map_eq_some_iff.mp hgroups
        cases htail
        rw [ih hfollowing, if_pos ((saturates_cons.mp hsaturates).resolve_left hlast)]
      · obtain ⟨⟨following, rest'⟩, hfollowing, htail⟩ := Option.map_eq_some_iff.mp hgroups
        cases htail
        rw [ih hfollowing, if_neg (fun h => hsaturates (saturates_cons.mpr (.inr h)))]
        rfl
      · cases hgroups
        obtain ⟨k, hk, -⟩ := (saturates_cons.mp hsaturates).resolve_left hlast
        exact absurd hk (Nat.not_lt_zero k)
      · cases hgroups
        rfl

/-- The distance that is returned for the groups of a stream. -/
theorem readOffsetDistance_spec (hgroups : groups bytes = some (digits, rest)) :
    readOffsetDistance bytes =
      if Saturates digits.headI digits.tail then .error .structureLimit
      else if offsetValue digits.headI digits.tail % 2 ^ 64 ≠ 0 then
        .ok (offsetValue digits.headI digits.tail % 2 ^ 64, rest)
      else .error .pack := by
  cases bytes with
  | nil => cases hgroups
  | cons byte bytes =>
    have hsmall : payload byte % 2 ^ 64 = payload byte :=
      Nat.mod_eq_of_lt ((payload_lt byte).trans (by decide))
    unfold groups at hgroups
    split_ifs at hgroups with hcontinues
    · obtain ⟨⟨following, rest'⟩, hfollowing, htail⟩ := Option.map_eq_some_iff.mp hgroups
      cases htail
      have hread := readDistance_spec hfollowing (payload byte)
      rw [hsmall] at hread
      rw [readOffsetDistance, readDistanceFrom, if_pos hcontinues, hread, List.headI_cons,
        List.tail_cons]
      by_cases hsaturates : Saturates (payload byte) following
      · rw [if_pos hsaturates, if_pos hsaturates]
        rfl
      · rw [if_neg hsaturates, if_neg hsaturates]
        rfl
    · cases hgroups
      rw [readOffsetDistance, readDistanceFrom, if_neg hcontinues, List.headI_cons,
        List.tail_cons, if_neg (fun ⟨k, hk, _⟩ => Nat.not_lt_zero k hk)]
      change _ = if payload byte % 2 ^ 64 ≠ 0 then Except.ok (payload byte % 2 ^ 64, rest) else _
      rw [hsmall]
      rfl

theorem readDistance_of_none (hgroups : groups bytes = none) (distance : Nat) :
    ∃ failure, readDistance distance bytes = .error failure := by
  induction bytes generalizing distance with
  | nil => exact ⟨_, rfl⟩
  | cons byte bytes ih =>
    unfold groups at hgroups
    split_ifs at hgroups with hcontinues
    rw [readDistance_cons]
    split_ifs
    · exact ih (Option.map_eq_none_iff.mp hgroups) _
    · exact ⟨_, rfl⟩

/-- A stream that ends within the integer is refused. -/
theorem readOffsetDistance_of_none (hgroups : groups bytes = none) :
    ∃ failure, readOffsetDistance bytes = .error failure := by
  cases bytes with
  | nil => exact ⟨_, rfl⟩
  | cons byte bytes =>
    unfold groups at hgroups
    split_ifs at hgroups with hcontinues
    obtain ⟨failure, hfailure⟩ :=
      readDistance_of_none (Option.map_eq_none_iff.mp hgroups) (payload byte)
    refine ⟨failure, ?_⟩
    simp only [readOffsetDistance, readDistanceFrom, if_pos hcontinues, hfailure]
    rfl

theorem readOffsetDistance_exact_iff (bytes : List UInt8) :
    ExactAt (distanceValue bytes) (readOffsetDistance bytes) ↔ DistanceFits bytes := by
  unfold DistanceFits distanceValue
  cases hgroups : groups bytes with
  | none =>
    obtain ⟨failure, hfailure⟩ := readOffsetDistance_of_none hgroups
    rw [hfailure]
    exact iff_of_true ⟨fun _ h => (nomatch h), fun _ _ h => (nomatch h)⟩ (fun _ _ h => (nomatch h))
  | some read =>
    obtain ⟨digits, rest⟩ := read
    rw [readOffsetDistance_spec hgroups]
    constructor
    · rintro ⟨-, hlarge⟩ _ _ h
      cases h
      by_contra hfits
      obtain ⟨hvalue, hzero, hword⟩ : _ ∧ _ ∧ _ := by simpa only [not_or] using hfits
      rw [if_neg hword, if_pos hzero] at hlarge
      obtain ⟨_, h⟩ := hlarge _ _ rfl (Nat.not_lt.mp hvalue)
      cases h
    · intro hfits
      refine ⟨fun result h => ?_, fun v rest' h hlarge => ?_⟩
      · split_ifs at h with hword hzero
        cases h
        rcases hfits digits rest rfl with hvalue | hvalue | hvalue
        · rw [Nat.mod_eq_of_lt hvalue]
          rfl
        · exact absurd hvalue hzero
        · exact absurd hvalue hword
      · cases h
        rcases hfits digits rest rfl with hvalue | hvalue | hvalue
        · omega
        · rw [if_neg (not_not.mpr hvalue)]
          split_ifs
          · exact ⟨_, rfl⟩
          · exact ⟨_, rfl⟩
        · exact ⟨_, if_pos hvalue⟩

/-- The base that an offset delta gets is the entry at the distance that the bytes encode. -/
theorem readDeltaBase_entry {entryOffset : Nat} {offsets : BTreeMap Nat Nat}
    {base : Option DeltaBase} (hfits : DistanceFits bytes)
    (h : readDeltaBase entryOffset offsets 6 bytes = .ok (base, rest)) :
    ∃ distance index, distanceValue bytes = some (distance, rest) ∧ distance ≤ entryOffset ∧
      offsets.get? (entryOffset - distance) = some index ∧ base = some (.entry index) := by
  unfold readDeltaBase at h
  rw [if_pos rfl] at h
  obtain ⟨⟨distance, rest'⟩, hdistance, h⟩ := bind_eq_ok_iff.mp h
  dsimp only at h
  split_ifs at h with hle
  cases hindex : offsets.get? (entryOffset - distance) with
  | none =>
    rw [hindex] at h
    cases h
  | some index =>
    rw [hindex] at h
    cases h
    exact ⟨distance, index, ((readOffsetDistance_exact_iff bytes).mpr hfits).1 _ hdistance, hle,
      hindex, rfl⟩

/-- The sizes of a pack are decoded exactly, and a distance is exactly when the bits that it
loses do not matter; then the base of an offset delta is the one at the encoded distance. -/
theorem packIntegers_exact (bytes : List UInt8) :
    ExactAt (entryHeaderValue bytes)
      ((readEntryHeader bytes).map (fun header => (header.1.2, header.2))) ∧
    ExactAt (varintValue bytes) (readVarint bytes) ∧
    (ExactAt (distanceValue bytes) (readOffsetDistance bytes) ↔ DistanceFits bytes) ∧
    ∀ entryOffset offsets base rest, DistanceFits bytes →
      readDeltaBase entryOffset offsets 6 bytes = .ok (base, rest) →
      ∃ distance index, distanceValue bytes = some (distance, rest) ∧ distance ≤ entryOffset ∧
        offsets.get? (entryOffset - distance) = some index ∧ base = some (.entry index) :=
  ⟨readEntryHeader_exact bytes, readVarint_exact bytes, readOffsetDistance_exact_iff bytes,
    fun _ _ _ _ => readDeltaBase_entry⟩

/-- A distance of `2 ^ 64 + 12`. -/
def wrappedDistance : List UInt8 :=
  [0x80, 0xfe, 0xfe, 0xfe, 0xfe, 0xfe, 0xfe, 0xfe, 0xff, 0x0c]

/-- The entry at offset 24 gets the one at offset 12 as its base. -/
theorem wrappedDistance_accepted :
    distanceValue wrappedDistance = some (2 ^ 64 + 12, []) ∧
      readOffsetDistance wrappedDistance = .ok (12, []) ∧
      readDeltaBase 24 (BTreeMap.empty.insert 12 0) 6 wrappedDistance =
        .ok (some (.entry 0), []) := by
  decide +kernel

end ScherzoCloud.Git
