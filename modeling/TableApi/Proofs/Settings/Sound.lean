import TableApi.Proofs.Text.Joined
import TableApi.Proofs.Text.Upper
import TableApi.Settings.Basic

/-!
# Settings in order

What settings keep once they are normalized and checked: `Settings.Sound`. Exactly the settings that
are in order come out of the check (`Settings.checked_eq_ok`), and they come out of it as they went
in (`Settings.checked_eq_self`), so a second pass changes nothing.

A method is known in any case of its letters, and normal form puts it in upper case. Upper case
gives capitals only, also where a letter beyond ASCII becomes one of ASCII, so a method that is
known after that is a known method letter for letter (`Text.uppered_eq_of_sameLetters`).
-/

namespace TableApi

namespace Settings

variable {s given : Settings}

/-- A text with a character that is not blank. -/
def IsNamed (name : String) : Prop :=
  ∃ c ∈ name.toList, Text.isBlank c = false

theorem isBlankText_eq_false {name : String} : isBlankText name = false ↔ IsNamed name := by
  have hblank : isBlankText name = true ↔ ∀ c ∈ name.toList, Text.isBlank c = true := by
    rw [isBlankText, Text.trimmed, String.isEmpty_iff, ← Text.trim_eq_nil_iff,
      String.ofList_eq_empty_iff]
  rw [← Bool.not_eq_true, hblank, IsNamed]
  simp

/-- **Settings in order**: the main database has a name and is listed, all databases have names,
pages and inserts have rows, the catalog is not read all the time, and every method is known. -/
structure Sound (s : Settings) : Prop where
  main_named : IsNamed s.mainDb
  main_listed : s.mainDb ∈ s.databases
  databases_named : ∀ d ∈ s.databases, IsNamed d
  pageSize_pos : 0 < s.pageSize
  insertChunkSize_pos : 0 < s.insertChunkSize
  catalogTtl_ne_zero : s.catalogTtl ≠ some 0
  methods_known : ∀ m ∈ s.allowedMethods, m ∈ knownMethods

/-- Known methods are in capitals of ASCII. -/
theorem knownMethods_spec : ∀ m ∈ knownMethods,
    (∀ c ∈ m.toList, c.toNat < 128 ∧ c.toUpper = c) ∧ Text.uppered (Text.trimmed m) = m := by
  decide

/-- A method that agrees with a known one but for case is that one, once it is in normal form. -/
theorem mem_knownMethods {m : String} :
    knownMethods.any (Text.sameLetters · (Text.uppered m)) = true ↔
      Text.uppered m ∈ knownMethods := by
  rw [List.any_eq_true]
  constructor
  · rintro ⟨k, hk, hsame⟩
    rwa [Text.uppered_eq_of_sameLetters (knownMethods_spec k hk).1 hsame]
  · exact fun hm => ⟨_, hm, Text.sameLetters_refl _⟩

/-- **The rules**, as they are checked. -/
theorem validate_eq_ok : s.validate = .ok () ↔
    isBlankText s.mainDb = false ∧ s.pageSize ≠ 0 ∧ s.insertChunkSize ≠ 0 ∧
      s.catalogTtl ≠ some 0 ∧ s.unknownMethod? = none := by
  unfold validate
  split_ifs with hmain hpage hchunk httl
  · simp [hmain]
  · simp [hpage]
  · simp [hchunk]
  · simp [httl]
  · cases hmethod : s.unknownMethod? <;> simp [*]

/-- The databases of a normal form: the main one, and those that have names. -/
@[simp] theorem mem_normalDatabases {d : String} :
    d ∈ s.normalDatabases ↔ d = s.mainDb ∨ d ∈ s.databases ∧ IsNamed d := by
  have hnamed : d ∈ s.databases.filter (fun d => !isBlankText d) ↔
      d ∈ s.databases ∧ IsNamed d := by
    rw [List.mem_filter, Bool.not_eq_true', isBlankText_eq_false]
  unfold normalDatabases
  dsimp only
  split_ifs with hlisted
  · rw [hnamed]
    refine ⟨.inr, ?_⟩
    rintro (rfl | hd)
    · simpa [isBlankText_eq_false] using hlisted
    · exact hd
  · rw [List.mem_cons, hnamed]

/-- **Settings in normal form keep the rules exactly if they are in order.** -/
theorem validate_normalize : given.normalize.validate = .ok () ↔ given.normalize.Sound := by
  have hunknown : given.normalize.unknownMethod? = none ↔
      ∀ m ∈ given.normalize.allowedMethods, m ∈ knownMethods := by
    simp only [unknownMethod?, normalize, List.find?_eq_none, List.forall_mem_map,
      Bool.not_eq_true', Bool.not_eq_false, mem_knownMethods]
  rw [validate_eq_ok, hunknown, isBlankText_eq_false]
  -- normal form lists the main database and drops blank ones; the rules ask for the rest
  constructor
  · rintro ⟨hmain, hpage, hchunk, httl, hmethods⟩
    have hnamed : ∀ d ∈ given.normalDatabases, IsNamed d := by
      intro d hd
      rcases mem_normalDatabases.1 hd with rfl | ⟨-, hd⟩
      · exact hmain
      · exact hd
    exact ⟨hmain, mem_normalDatabases.2 (.inl rfl), hnamed, Nat.pos_of_ne_zero hpage,
      Nat.pos_of_ne_zero hchunk, httl, hmethods⟩
  · intro h
    exact ⟨h.main_named, h.pageSize_pos.ne', h.insertChunkSize_pos.ne', h.catalogTtl_ne_zero,
      h.methods_known⟩

/-- **Settings in order are in normal form.** -/
theorem Sound.normalize_eq_self (h : s.Sound) : s.normalize = s := by
  have hnamed : s.databases.filter (fun d => !isBlankText d) = s.databases :=
    List.filter_eq_self.2 fun d hd => by
      rw [isBlankText_eq_false.2 (h.databases_named d hd)]
      rfl
  have hdatabases : s.normalDatabases = s.databases := by
    simp [normalDatabases, hnamed, h.main_listed]
  have hmethods : s.allowedMethods.map (fun m => Text.uppered (Text.trimmed m)) =
      s.allowedMethods :=
    (List.map_congr_left fun m hm => (knownMethods_spec m (h.methods_known m hm)).2).trans
      (List.map_id _)
  rw [normalize, hdatabases, hmethods]

/-- **What comes out of the check** are the settings in normal form, where these are in order. -/
theorem checked_eq_ok : given.checked = .ok s ↔ given.normalize = s ∧ s.Sound := by
  unfold checked
  dsimp only
  constructor
  · intro h
    cases hvalid : given.normalize.validate with
    | error e => simp [hvalid, Except.map] at h
    | ok u =>
      have hs : given.normalize = s := by simpa [hvalid, Except.map] using h
      exact ⟨hs, hs ▸ validate_normalize.1 hvalid⟩
  · rintro ⟨rfl, h⟩
    rw [validate_normalize.2 h]
    rfl

/-- Settings in order come out of the check as they are. -/
theorem Sound.checked_eq_ok_self (h : s.Sound) : s.checked = .ok s :=
  checked_eq_ok.2 ⟨h.normalize_eq_self, h⟩

end Settings

end TableApi
