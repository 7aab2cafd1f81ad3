import ScherzoCloud.Collections.Framing
import ScherzoCloud.Workflow.RetainedSources

/-!
# The content digest of a source closure

`digest_source_closure` feeds a hash context piece by piece and stops when the framed
length passes the limit.  What it has fed at the end is one framing of the whole closure,
and a framing has one reading only: under a hash without collisions closures with the same
digest are the same.
-/

namespace ScherzoCloud.Workflow

open Collections

/-- The bytes fed to the hash, with the framed length beside them. -/
structure HashContext where
  bytes : List UInt8
  framedLength : Nat

def hashBytes (context : HashContext) (bytes : List UInt8) : Except ResolutionFailure HashContext :=
  let framedLength := context.framedLength + bytes.length
  -- `try_from` and `checked_add` refuse what is beyond `u64`, the filter what is beyond the limit
  if framedLength < 2 ^ 64 ∧ framedLength ≤ maximumSourceClosureBytes then
    .ok ⟨context.bytes ++ bytes, framedLength⟩
  else .error (sourceClosureTooLarge .contentDigest)

def hashLengthPrefixed (context : HashContext) (bytes : List UInt8) :
    Except ResolutionFailure HashContext := do
  let context ← hashBytes context (lengthBytes bytes.length)
  hashBytes context bytes

def hashSourceClosure (closure : BTreeMap String (List UInt8)) (context : HashContext) :
    Except ResolutionFailure HashContext := do
  let context ← hashBytes context contentClosureDomain.toUTF8.toList
  let context ← hashBytes context (lengthBytes closure.size)
  closure.entries.foldlM (fun context entry => do
    let context ← hashLengthPrefixed context entry.1.toUTF8.toList
    hashLengthPrefixed context entry.2) context

/-- A step feeds the bytes if they stay within the limit, and is refused if they do not. -/
def Feeds (step : HashContext → Except ResolutionFailure HashContext) (bytes : List UInt8) : Prop :=
  ∀ context : HashContext, context.framedLength ≤ maximumSourceClosureBytes →
    step context =
      if context.framedLength + bytes.length ≤ maximumSourceClosureBytes then
        .ok ⟨context.bytes ++ bytes, context.framedLength + bytes.length⟩
      else .error (sourceClosureTooLarge .contentDigest)

variable {f g : HashContext → Except ResolutionFailure HashContext} {a b bytes : List UInt8}

theorem hashBytes_feeds : Feeds (hashBytes · bytes) bytes := by
  intro context _
  have hlimit : maximumSourceClosureBytes < 2 ^ 64 := by decide
  exact if_congr ⟨And.right, fun h => ⟨h.trans_lt hlimit, h⟩⟩ rfl rfl

/-- Two steps pass the limit if and only if their bytes together do. -/
theorem Feeds.bind (hf : Feeds f a) (hg : Feeds g b) :
    Feeds (fun context => f context >>= g) (a ++ b) := by
  intro context hcontext
  dsimp only
  rw [hf context hcontext, List.length_append, ← Nat.add_assoc, ← List.append_assoc]
  split_ifs with hfirst hboth hboth
  · exact (hg _ hfirst).trans (if_pos hboth)
  · exact (hg _ hfirst).trans (if_neg hboth)
  · omega
  · rfl

theorem hashLengthPrefixed_feeds : Feeds (hashLengthPrefixed · bytes) (lengthPrefixed bytes) :=
  hashBytes_feeds.bind hashBytes_feeds

theorem Feeds.foldlM {α : Type} {step : HashContext → α → Except ResolutionFailure HashContext}
    {encode : α → List UInt8} (h : ∀ item, Feeds (step · item) (encode item)) (items : List α) :
    Feeds (items.foldlM step) (items.flatMap encode) := by
  induction items with
  | nil =>
    intro context hcontext
    simp [hcontext]
    rfl
  | cons item items ih =>
    rw [List.flatMap_cons]
    exact (h item).bind ih

variable {closure closure' : BTreeMap String (List UInt8)}

theorem hashSourceClosure_feeds : Feeds (hashSourceClosure closure) (framedClosure closure) := by
  unfold framedClosure
  rw [List.append_assoc]
  refine hashBytes_feeds.bind (hashBytes_feeds.bind (Feeds.foldlM (fun entry => ?_) _))
  exact hashLengthPrefixed_feeds.bind hashLengthPrefixed_feeds

variable {a b x y : List UInt8}

/-- A length-prefixed field can be read off the front of a stream. -/
theorem lengthPrefixed_append_inj (ha : a.length < 2 ^ 64) (hb : b.length < 2 ^ 64)
    (h : lengthPrefixed a ++ x = lengthPrefixed b ++ y) : a = b ∧ x = y := by
  have hbytes : ∀ n, lengthBytes n = (bigEndian 8 n).map UInt8.ofFin := by
    intro n
    simp only [lengthBytes, bigEndian, List.range, List.range.loop, List.map_cons, List.map_nil,
      Nat.div_div_eq_div_mul, List.nil_append, List.cons_append, Nat.sub_self,
      Nat.pow_zero, Nat.div_one]
    rfl
  have hinj : Function.Injective UInt8.ofFin := fun a b hab => congrArg UInt8.toFin hab
  unfold lengthPrefixed at h
  rw [List.append_assoc, List.append_assoc, hbytes, hbytes] at h
  obtain ⟨hlength, hrest⟩ := List.append_inj h (by simp)
  exact List.append_inj hrest
    (bigEndian_inj ha hb (List.map_injective_iff.mpr hinj hlength))

theorem fields_lt (hwithin : (framedClosure closure).length ≤ maximumSourceClosureBytes)
    {entry : String × List UInt8} (hentry : entry ∈ closure.entries) :
    entry.1.toUTF8.toList.length < 2 ^ 64 ∧ entry.2.length < 2 ^ 64 := by
  have hlimit : maximumSourceClosureBytes < 2 ^ 64 := by decide
  have hfield := (List.sublist_flatten_of_mem (List.mem_map_of_mem (f := fun entry =>
    lengthPrefixed entry.1.toUTF8.toList ++ lengthPrefixed entry.2) hentry)).length_le
  simp only [framedClosure, List.length_append, List.flatMap_def] at hwithin
  simp only [lengthPrefixed, List.length_append] at hfield hwithin
  omega

theorem toList_loop (bytes : ByteArray) (i : Nat) (r : List UInt8) :
    ByteArray.toList.loop bytes i r = r.reverse ++ bytes.data.toList.drop i := by
  fun_induction ByteArray.toList.loop bytes i r with
  | case1 i r hlt ih =>
    have hlt' : i < bytes.data.toList.length := hlt
    rw [ih, List.reverse_cons, List.append_assoc, List.drop_eq_getElem_cons hlt']
    simp [ByteArray.get!, hlt]
  | case2 i r hge =>
    rw [List.drop_eq_nil_of_le (Nat.le_of_not_lt hge), List.append_nil]

theorem toUTF8_toList_inj {s t : String} (h : s.toUTF8.toList = t.toUTF8.toList) : s = t := by
  rw [ByteArray.toList, ByteArray.toList, toList_loop, toList_loop] at h
  exact String.toByteArray_inj.mp (ByteArray.ext (Array.toList_inj.mp h))

/-- The framing of a closure has one reading. -/
theorem framedClosure_inj (hwithin : (framedClosure closure).length ≤ maximumSourceClosureBytes)
    (hwithin' : (framedClosure closure').length ≤ maximumSourceClosureBytes)
    (h : framedClosure closure = framedClosure closure') : closure = closure' := by
  unfold framedClosure at h
  rw [List.append_assoc, List.append_assoc] at h
  have hrest := (List.append_inj (List.append_cancel_left h) (by simp [lengthBytes])).2
  refine BTreeMap.ext_entries (flatMap_inj ?_ ?_ (fun _ => fields_lt hwithin)
    (fun _ => fields_lt hwithin') hrest)
  · intro entry hnil
    simp [lengthPrefixed, lengthBytes] at hnil
  · intro entry entry' x y ha hb h
    rw [List.append_assoc, List.append_assoc] at h
    obtain ⟨hpath, h⟩ := lengthPrefixed_append_inj ha.1 hb.1 h
    obtain ⟨hcontent, hrest⟩ := lengthPrefixed_append_inj ha.2 hb.2 h
    exact ⟨Prod.ext (toUTF8_toList_inj hpath) hcontent, hrest⟩

variable {Schema : Type}

/-- The digest of a closure, from a context that nothing was fed to. -/
def closureDigest (formats : SourceFormats Schema) (closure : BTreeMap String (List UInt8)) :
    Except ResolutionFailure WorkflowContentDigest :=
  (hashSourceClosure closure ⟨[], 0⟩).map fun context =>
    ⟨.sha256, formats.sha256Hex context.bytes⟩

theorem closureDigest_eq (formats : SourceFormats Schema) :
    closureDigest formats closure = digestSourceClosure formats closure := by
  unfold closureDigest digestSourceClosure
  rw [hashSourceClosure_feeds _ (Nat.zero_le _), Nat.zero_add, List.nil_append]
  split_ifs <;> rfl

/-- Digests identify closures, and are refused exactly beyond the limit. -/
theorem closure_digest_identifies (formats : SourceFormats Schema)
    (hsha256 : Function.Injective formats.sha256Hex) :
    (∀ closure, (∃ failure, closureDigest formats closure = .error failure) ↔
      maximumSourceClosureBytes < (framedClosure closure).length) ∧
    ∀ closure closure' digest digest', closureDigest formats closure = .ok digest →
      closureDigest formats closure' = .ok digest' → digest.value = digest'.value →
      closure = closure' := by
  simp only [closureDigest_eq, digestSourceClosure]
  refine ⟨fun closure => ?_, fun closure closure' digest digest' h h' hvalue => ?_⟩
  · split_ifs with hwithin
    · simpa using hwithin
    · simpa using hwithin
  · split_ifs at h h' with hwithin hwithin'
    cases h
    cases h'
    exact framedClosure_inj hwithin hwithin' (hsha256 hvalue)

/-- A file at `a` with the byte of `b`, and an empty file at `ab`. -/
def splitClosures : BTreeMap String (List UInt8) × BTreeMap String (List UInt8) :=
  (.ofList [("a", [98])], .ofList [("ab", [])])

theorem splitClosures_differ : (closureDigest schemaFormats splitClosures.1).isOk = true ∧
    closureDigest schemaFormats splitClosures.1 ≠ closureDigest schemaFormats splitClosures.2 := by
  have hok : (closureDigest schemaFormats splitClosures.1).isOk = true := by decide +kernel
  have hsha256 : Function.Injective schemaFormats.sha256Hex := by
    have hchar : ∀ byte : UInt8, (Char.ofNat byte.toNat).toNat = byte.toNat := by
      intro byte
      have := byte.toNat_lt
      rw [Char.ofNat, dif_pos (Or.inl (by omega))]
      rfl
    intro bytes bytes' h
    refine List.map_injective_iff.mpr (fun byte byte' hbyte => ?_) (String.ofList_injective h)
    rw [← UInt8.toNat_inj, ← hchar, hbyte, hchar]
  refine ⟨hok, fun h => ?_⟩
  cases hdigest : closureDigest schemaFormats splitClosures.1 with
  | error =>
    rw [hdigest] at hok
    cases hok
  | ok digest =>
    have hsame := (closure_digest_identifies schemaFormats hsha256).2 _ _ digest digest hdigest
      (h.symm.trans hdigest) rfl
    exact absurd (congrArg BTreeMap.entries hsame) (by decide)

end ScherzoCloud.Workflow
