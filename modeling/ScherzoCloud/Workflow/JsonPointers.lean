import ScherzoCloud.Workflow.Evidence

/-!
# The grammar of JSON pointers

Conditions decode a pointer by characters, evidence checks one by bytes.  Both accept the
same texts, a decoded pointer is written as it was authored, and a selection follows the
decoded tokens.
-/

namespace ScherzoCloud.Workflow

/-- The loop of `valid_json_pointer` over the bytes of a token. -/
def validPointerBytes : List UInt8 → Bool
  | [] => true
  | byte :: bytes =>
    if byte = '~'.toUInt8 then
      match bytes with
      | [] => false
      | escape :: bytes' =>
        (escape = '0'.toUInt8 || escape = '1'.toUInt8) && validPointerBytes bytes'
    else validPointerBytes bytes

/-- `valid_json_pointer`: split at characters, checked by bytes. -/
def validJsonPointerBytes (value : String) : Bool :=
  match value.toList with
  | [] => true
  | c :: rest => c = '/' && (rest.splitOn '/').all fun token =>
      validPointerBytes (token.flatMap String.utf8EncodeChar)

/-- A token with its escapes. -/
def encodePointerToken (token : List Char) : List Char :=
  token.flatMap fun c => if c = '~' then ['~', '0'] else if c = '/' then ['~', '1'] else [c]

/-- The text of a pointer, with a slash before every token. -/
def pointerText (tokens : List String) : String :=
  String.ofList (['/'].intercalate ([] :: tokens.map fun token => encodePointerToken token.toList))

/-- The part of a value that is reached along decoded tokens: a member by its name, an
element by the decimal text of its `usize` index. -/
inductive Json.Reaches : List String → Json → Json → Prop
  | here (value : Json) : Reaches [] value value
  | member {name : String} {tokens : List String} {members : List (String × Json)}
      {part value : Json} (hmember : Json.member? name members = some part)
      (hrest : Reaches tokens part value) : Reaches (name :: tokens) (.object members) value
  | element {index : Nat} {tokens : List String} {items : List Json} {part value : Json}
      (hindex : index < 2 ^ 64) (helement : items[index]? = some part)
      (hrest : Reaches tokens part value) : Reaches (toString index :: tokens) (.array items) value

variable {c : Char} {bytes rest : List UInt8}

/-- A byte of ASCII stands for its character only. -/
theorem toNat_of_mem_utf8EncodeChar {byte : UInt8} (hbyte : byte ∈ String.utf8EncodeChar c)
    (hascii : byte.toNat < 128) : c.toNat = byte.toNat := by
  rw [String.utf8EncodeChar.eq_1] at hbyte
  change c.val.toNat = _
  split_ifs at hbyte <;> simp only [List.mem_cons, List.not_mem_nil, or_false] at hbyte
  · subst hbyte
    simp only [UInt8.toNat_ofNat']
    omega
  · rcases hbyte with rfl | rfl <;> simp only [UInt8.toNat_ofNat'] at hascii <;> omega
  · rcases hbyte with rfl | rfl | rfl <;> simp only [UInt8.toNat_ofNat'] at hascii <;> omega
  · rcases hbyte with rfl | rfl | rfl | rfl <;> simp only [UInt8.toNat_ofNat'] at hascii <;> omega

theorem validPointerBytes_append (h : ∀ byte ∈ bytes, byte ≠ '~'.toUInt8) :
    validPointerBytes (bytes ++ rest) = validPointerBytes rest := by
  induction bytes with
  | nil => rfl
  | cons byte bytes ih =>
    rw [List.forall_mem_cons] at h
    rw [List.cons_append, validPointerBytes.eq_def]
    exact (if_neg h.1).trans (ih h.2)

theorem ne_of_mem_utf8EncodeChar {d : Char} (hd : d.toNat < 128) (hne : c ≠ d) {byte : UInt8}
    (hbyte : byte ∈ String.utf8EncodeChar c) : byte ≠ d.toUInt8 := by
  rintro rfl
  have hsame : d.toUInt8.toNat = d.toNat := Nat.mod_eq_of_lt (hd.trans (by decide))
  exact hne (Char.toNat_inj.mp ((toNat_of_mem_utf8EncodeChar hbyte (hsame ▸ hd)).trans hsame))

theorem validPointerBytes_eq (token : List Char) :
    validPointerBytes (token.flatMap String.utf8EncodeChar) = validPointerToken token := by
  fun_induction validPointerToken token with
  | case1 => rfl
  | case2 => rfl
  | case3 escape _ ih =>
    -- the first byte after the tilde is that of an escape for an escape only
    rw [← ih]
    by_cases hzero : escape = '0'
    · subst hzero
      rfl
    by_cases hone : escape = '1'
    · subst hone
      rfl
    obtain ⟨byte, bytes, hbytes⟩ :=
      List.exists_cons_of_ne_nil (String.utf8EncodeChar_ne_nil (c := escape))
    have hmem : byte ∈ String.utf8EncodeChar escape := by simp [hbytes]
    have hzero' := ne_of_mem_utf8EncodeChar (by decide) hzero hmem
    have hone' := ne_of_mem_utf8EncodeChar (by decide) hone hmem
    have htilde : String.utf8EncodeChar '~' = ['~'.toUInt8] := rfl
    simp [htilde, hbytes, validPointerBytes, hzero, hone, hzero', hone']
  | case4 _ _ hne ih =>
    rw [List.flatMap_cons, validPointerBytes_append, ih]
    exact fun byte => ne_of_mem_utf8EncodeChar (by decide) hne

theorem notMem_of_mem_splitOn {a : Char} {l token : List Char} (h : token ∈ l.splitOn a) :
    a ∉ token := by
  rw [List.splitOn_eq_splitOnP] at h
  induction l generalizing token with
  | nil => simp_all
  | cons c l ih =>
    rw [List.splitOnP_cons_eq_if_modifyHead] at h
    generalize List.splitOnP (· == a) l = parts at h ih
    cases parts <;> grind [List.modifyHead]

/-- The decoder accepts what the check accepts, and loses nothing. -/
theorem decodePointerToken_spec (token : List Char) :
    match decodePointerToken token with
    | .ok decoded => validPointerToken token = true ∧
        ('/' ∉ token → encodePointerToken decoded = token)
    | .error _ => validPointerToken token = false := by
  fun_induction decodePointerToken token with
  | case1 => exact ⟨rfl, fun _ => rfl⟩
  | case2 _ rest hne ih =>
    rw [validPointerToken.eq_def]
    cases hrest : decodePointerToken rest with
    | error => simpa [hrest, hne, Except.map] using ih
    | ok decoded =>
      rw [hrest] at ih
      refine ⟨(if_neg hne).trans ih.1, fun hslash => ?_⟩
      rw [List.mem_cons, not_or] at hslash
      have hdecoded := ih.2 hslash.2
      simp_all [encodePointerToken, Ne.symm hslash.1]
  | case4 _ _ rest ih | case5 _ _ rest _ ih =>
    cases hrest : decodePointerToken rest <;>
      simp_all [Except.map, encodePointerToken, validPointerToken]
  | _ => simp_all [validPointerToken]

theorem mapM_decodePointerToken_spec (tokens : List (List Char)) :
    match tokens.mapM decodePointerToken with
    | .ok decoded => tokens.all validPointerToken = true ∧
        ((∀ token ∈ tokens, '/' ∉ token) → decoded.map encodePointerToken = tokens)
    | .error _ => tokens.all validPointerToken = false := by
  induction tokens with
  | nil => exact ⟨rfl, fun _ => rfl⟩
  | cons token tokens ih =>
    have htoken := decodePointerToken_spec token
    rw [List.mapM_cons]
    cases hfirst : decodePointerToken token <;> cases hrest : tokens.mapM decodePointerToken <;>
      simp_all [bind, Except.bind, pure, Except.pure]

theorem JsonPointer.parse_spec (s : String) :
    match parse s with
    | .ok pointer => validJsonPointer s = true ∧ pointerText pointer.tokens = s
    | .error _ => validJsonPointer s = false := by
  unfold parse validJsonPointer
  cases htext : s.toList with
  | nil => exact ⟨rfl, (String.toList_eq_nil_iff.mp htext).symm⟩
  | cons c rest =>
    by_cases hc : c = '/'
    · subst hc
      have hspec := mapM_decodePointerToken_spec (rest.splitOn '/')
      dsimp only
      cases htokens : (rest.splitOn '/').mapM decodePointerToken with
      | error =>
        rw [htokens] at hspec
        exact hspec
      | ok tokens =>
        rw [htokens] at hspec
        have htexts : (tokens.map String.ofList).map
            (fun token => encodePointerToken token.toList) = rest.splitOn '/' := by
          rw [← hspec.2 fun _ => notMem_of_mem_splitOn, List.map_map]
          simp [Function.comp_def]
        refine ⟨hspec.1, ?_⟩
        rw [← String.toList_inj, htext, pointerText, String.toList_ofList, htexts]
        exact (congrArg _ (List.splitOn_append_cons_self [] rest).symm).trans
          (List.intercalate_splitOn '/')
    · simp [hc]

theorem toDigits_digit {c : Char} (h : c.isDigit = true) :
    c.toNat - '0'.toNat < 10 ∧ Nat.toDigits 10 (c.toNat - '0'.toNat) = [c] := by
  have hdigit : ∀ d < 10, (Nat.digitChar d).toNat = 48 + d := by decide
  have hc : 48 ≤ c.toNat ∧ c.toNat ≤ 57 := Char.isDigit_iff_toNat.mp h
  have hlt : c.toNat - '0'.toNat < 10 := Nat.sub_lt_left_of_lt_add hc.1 (Nat.lt_succ_of_le hc.2)
  refine ⟨hlt, ?_⟩
  rw [Nat.toDigits_of_lt_base hlt, List.singleton_inj, ← Char.toNat_inj, hdigit _ hlt]
  exact Nat.add_sub_of_le hc.1

theorem toDigits_ofDigitChars {digits : List Char} (h : digits.all Char.isDigit = true) {n : Nat}
    (hn : 0 < n) :
    Nat.toDigits 10 (Nat.ofDigitChars 10 digits n) = Nat.toDigits 10 n ++ digits := by
  induction digits generalizing n with
  | nil => simp
  | cons c digits ih =>
    rw [List.all_cons, Bool.and_eq_true] at h
    obtain ⟨hlt, hdigits⟩ := toDigits_digit h.1
    rw [Nat.ofDigitChars_cons, ih h.2 (by omega), ← Nat.toDigits_append_toDigits (by decide) hn hlt,
      hdigits, List.append_assoc]
    rfl

theorem toDigits_head {n : Nat} {digits : List Char} (h : Nat.toDigits 10 n = '0' :: digits) :
    n = 0 := by
  induction n using Nat.strongRecOn generalizing digits with
  | ind n ih =>
    rw [Nat.toDigits_eq_if (by decide)] at h
    split_ifs at h with hlt
    · have hdigit : ∀ n < 10, Nat.digitChar n = '0' → n = 0 := by decide
      exact hdigit n hlt (List.cons.inj h).1
    · cases hhigh : Nat.toDigits 10 (n / 10) with
      | nil => exact absurd hhigh Nat.toDigits_ne_nil
      | cons first rest =>
        rw [hhigh] at h
        obtain rfl := (List.cons.inj h).1
        have := ih (n / 10) (by omega) hhigh
        omega

/-- An index is read from its canonical decimal text only. -/
theorem parseArrayIndex_eq_some_iff {token : String} {n : Nat} :
    parseArrayIndex token = some n ↔ token = toString n ∧ n < 2 ^ 64 := by
  rw [Nat.toString_eq_ofList_toDigits, ← String.toList_inj, String.toList_ofList]
  unfold parseArrayIndex
  constructor
  · intro h
    split at h
    · rename_i hzero
      cases h
      exact ⟨hzero, by decide⟩
    · rename_i first rest _ htoken
      simp only [← Nat.ofDigitChars_eq_foldl, Nat.ofDigitChars_cons, Nat.mul_zero, Nat.zero_add,
        Option.ite_none_right_eq_some, Option.some.injEq, Bool.and_eq_true,
        decide_eq_true_eq] at h
      obtain ⟨⟨⟨hfirst, hne⟩, hrest⟩, hlt, rfl⟩ := h
      obtain ⟨-, hdigits⟩ := toDigits_digit hfirst
      have hpos : 0 < first.toNat - '0'.toNat := by
        refine Nat.pos_of_ne_zero fun hzero => hne ?_
        rw [hzero] at hdigits
        exact (List.singleton_inj.mp hdigits).symm
      rw [toDigits_ofDigitChars hrest hpos, hdigits, htoken]
      exact ⟨rfl, hlt⟩
    · cases h
  · rintro ⟨htoken, hlt⟩
    rw [htoken]
    split
    · rename_i hzero
      rw [toDigits_head hzero]
    · rename_i first rest hzero htoken
      have hall : ∀ c ∈ first :: rest, c.isDigit = true := fun c hc =>
        Nat.isDigit_of_mem_toDigits (by decide) (by decide) (htoken ▸ hc)
      have hne : first ≠ '0' := by
        rintro rfl
        rw [toDigits_head htoken] at htoken
        exact hzero rfl (List.cons.inj htoken).2.symm
      rw [List.forall_mem_cons, ← List.all_eq_true] at hall
      simp only [← Nat.ofDigitChars_eq_foldl, ← htoken, Nat.ofDigitChars_ten_toDigits]
      rw [if_pos (by simp [hall, hne]), if_pos hlt]
    · rename_i hnil
      exact absurd hnil Nat.toDigits_ne_nil

theorem JsonPointer.selectTokens_eq_some_iff {tokens : List String} {value part : Json} :
    selectTokens tokens value = some part ↔ Json.Reaches tokens value part := by
  induction tokens generalizing value with
  | nil =>
    constructor
    · rintro ⟨⟩
      exact .here _
    · rintro ⟨⟩
      rfl
  | cons token tokens ih =>
    rw [selectTokens, Option.bind_eq_some_iff]
    constructor
    · rintro ⟨next, hnext, hrest⟩
      cases value with
      | object members => exact .member hnext (ih.mp hrest)
      | array items =>
        obtain ⟨index, hindex, helement⟩ := Option.bind_eq_some_iff.mp hnext
        obtain ⟨rfl, hlt⟩ := parseArrayIndex_eq_some_iff.mp hindex
        exact .element hlt helement (ih.mp hrest)
      | _ => cases hnext
    · intro h
      cases h with
      | member hmember hrest => exact ⟨_, hmember, ih.mpr hrest⟩
      | element hindex helement hrest =>
        exact ⟨_, Option.bind_eq_some_iff.mpr
          ⟨_, parseArrayIndex_eq_some_iff.mpr ⟨rfl, hindex⟩, helement⟩, ih.mpr hrest⟩

/-- Both grammars accept the same texts, a decoded pointer is written as it was authored, and a
selection is what the decoded tokens lead to. -/
theorem json_pointer_grammars_agree (s : String) :
    (validJsonPointerBytes s = true ↔ ∃ pointer, JsonPointer.parse s = .ok pointer) ∧
    ∀ pointer, JsonPointer.parse s = .ok pointer → pointerText pointer.tokens = s ∧
      ∀ value part, pointer.select value = some part ↔ Json.Reaches pointer.tokens value part := by
  have hspec := JsonPointer.parse_spec s
  have hbytes : validJsonPointerBytes s = validJsonPointer s := by
    simp only [validJsonPointerBytes, validPointerBytes_eq]
    rfl
  rw [hbytes]
  cases hparse : JsonPointer.parse s with
  | error => simp_all
  | ok pointer =>
    rw [hparse] at hspec
    refine ⟨by simp [hspec.1], ?_⟩
    rintro _ ⟨⟩
    exact ⟨hspec.2, fun value part => JsonPointer.selectTokens_eq_some_iff⟩

/-- A pointer into an array, with an escaped slash in a name. -/
theorem escaped_pointer_selects : validJsonPointerBytes "/a~1b/1" = true ∧
    ∃ pointer, JsonPointer.parse "/a~1b/1" = .ok pointer ∧ pointerText pointer.tokens = "/a~1b/1" ∧
      Json.Reaches pointer.tokens (.object [("a/b", .array [.null, .bool true])]) (.bool true) := by
  have hparse : JsonPointer.parse "/a~1b/1" = .ok ⟨"/a~1b/1", ["a/b", "1"]⟩ := by decide +kernel
  obtain ⟨hvalid, hselects⟩ := json_pointer_grammars_agree "/a~1b/1"
  obtain ⟨htext, hselect⟩ := hselects _ hparse
  exact ⟨hvalid.mpr ⟨_, hparse⟩, _, hparse, htext, (hselect _ _).mp rfl⟩

end ScherzoCloud.Workflow
