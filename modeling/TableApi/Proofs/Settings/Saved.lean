import Mathlib.Data.List.Forall2
import TableApi.Proofs.Json.Printed
import TableApi.Proofs.Settings.Sound
import TableApi.Settings.Load

/-!
# Settings that are saved and loaded again

Settings that were loaded from a document are in order, and their own JSON text is a document of the
same settings, but for the address of the database, which it does not show. Three things meet there.
A document gives no count that does not fit a word (`fits_of_ofFields?`), so the counts are printed
and read back as they are; the text of settings is read as the fields that were printed
(`Settings.document`); and settings in order pass the check unchanged.
-/

namespace TableApi.Settings

variable {s given : Settings}

/-! ## What a document gives -/

/-- The counts of the settings fit a word. -/
structure Fits (s : Settings) : Prop where
  pageSize_le : s.pageSize ≤ Number.maxInt.toNat
  insertChunkSize_le : s.insertChunkSize ≤ Number.maxInt.toNat
  catalogTtl_le : ∀ t ∈ s.catalogTtl, t ≤ Number.maxInt.toNat
  bodyLimit_le : s.bodyLimit ≤ Number.maxInt.toNat

theorem le_of_readCount? {w : Json.Written} {n : Nat} (h : readCount? w = some n) :
    n ≤ Number.maxInt.toNat := by
  unfold readCount? at h
  split at h
  · split at h
    · next k hvalue =>
      obtain ⟨-, hn⟩ := Option.ite_none_right_eq_some.1 h
      obtain rfl := Option.some.inj hn
      exact Int.toNat_le_toNat (Json.Numeral.le_maxInt_of_value? hvalue)
    · cases h
  · cases h

/-- What a field gives is as its default is, if what is read is so. -/
theorem of_readOr? {α : Type} {fields : List (String × Json.Written)} {name : String}
    {default x : α} {read : Json.Written → Option α} {p : α → Prop}
    (h : readOr? fields name default read = some x) (hdefault : p default)
    (hread : ∀ {w y}, read w = some y → p y) : p x := by
  unfold readOr? at h
  split at h
  · exact hread h
  · exact Option.some.inj h ▸ hdefault

/-- What may be null is as what is read, where it is not null. -/
theorem of_readOption? {α : Type} {x : Option α} {read : Json.Written → Option α}
    {w : Json.Written} {p : α → Prop} (h : readOption? read w = some x)
    (hread : ∀ {w y}, read w = some y → p y) : ∀ y ∈ x, p y := by
  unfold readOption? at h
  split at h
  · obtain rfl := Option.some.inj h
    simp
  · obtain ⟨z, hz, rfl⟩ := Option.map_eq_some_iff.1 h
    simpa using hread hz

/-- **A document gives counts that fit.** -/
theorem fits_of_ofFields? {fields : List (String × Json.Written)}
    (h : ofFields? fields = some given) : given.Fits := by
  simp only [ofFields?, Option.bind_eq_bind, Option.bind_eq_some_iff, Option.pure_def,
    Option.some.injEq] at h
  obtain ⟨dialect, -, mainDb, -, databases, -, pageSize, hpage, methods, -, chunk, hchunk, ttl,
    httl, limit, hlimit, url, -, rfl⟩ := h
  refine ⟨?_, ?_, ?_, ?_⟩
  · exact of_readOr? (p := (· ≤ _)) hpage (by decide) le_of_readCount?
  · exact of_readOr? (p := (· ≤ _)) hchunk (by decide) le_of_readCount?
  · exact of_readOr? (p := fun ttl => ∀ t ∈ ttl, t ≤ _) httl (by simp) fun hread =>
      of_readOption? hread le_of_readCount?
  · exact of_readOr? (p := (· ≤ _)) hlimit (by decide) le_of_readCount?

/-- **What is loaded** are fields that fit, in normal form and in order. -/
theorem ofJson_eq_ok {text : String} (h : ofJson text = .ok s) :
    ∃ given : Settings, given.Fits ∧ given.checked = .ok s := by
  unfold ofJson at h
  split at h
  · next given hgiven =>
    obtain ⟨fields, -, hfields⟩ := Option.bind_eq_some_iff.1 hgiven
    exact ⟨given, fits_of_ofFields? hfields, h⟩
  · cases h

/-! ## What is printed -/

/-- A count of a document. -/
def countField (n : Nat) : Json.Written :=
  .number (.ofNat n)

/-- A string of a document. -/
def stringField (name : String) : Json.Written :=
  .string (Json.piecesOf name)

/-- Strings of a document. -/
def stringsField (names : List String) : Json.Written :=
  .array (names.map stringField)

/-- **The fields of the settings' own text.** -/
def document (s : Settings) : List (String × Json.Written) :=
  [("dialect", stringField s.dialect.name), ("main_db", stringField s.mainDb),
    ("databases", stringsField s.databases), ("page_size", countField s.pageSize),
    ("allowed_methods", stringsField s.allowedMethods),
    ("insert_chunk_size", countField s.insertChunkSize),
    ("catalog_ttl_secs", (s.catalogTtl.map countField).getD .null),
    ("body_limit_bytes", countField s.bodyLimit)]

@[simp] theorem written?_ofNat (n : Nat) : (Json.ofNat n).written? = some (countField n) := by
  rw [Json.ofNat, Json.written?, Json.toList_text_int, Json.Numeral.ofChars?_toDigits]
  rfl

@[simp] theorem itemsWritten?_strings (names : List String) :
    Json.itemsWritten? (names.map .string) = some (names.map stringField) := by
  induction names with
  | nil => rfl
  | cons name names ih => exact Json.itemsWritten?_cons.2 ⟨_, rfl, _, ih, rfl⟩

/-- The settings' text is written as their document. -/
theorem written?_toJson (s : Settings) : s.toJson.written? =
    some (.object (s.document.map fun f => (Json.piecesOf f.1, f.2))) := by
  have httl : ((s.catalogTtl.map Json.ofNat).getD .null).written? =
      some ((s.catalogTtl.map countField).getD .null) := by
    cases s.catalogTtl with
    | none => rfl
    | some t => exact written?_ofNat t
  simp only [toJson, Json.written?, Json.fieldsWritten?, itemsWritten?_strings, written?_ofNat,
    httl]
  rfl

/-! ## What is read back -/

theorem mapM_eq_some {α β : Type} {g : β → Option α} {as : List α} {bs : List β}
    (h : List.Forall₂ (fun a b => g b = some a) as bs) : bs.mapM g = some as := by
  induction h with
  | nil => rfl
  | cons hb _ ih => simp [hb, ih]

/-- What is read back one by one is read back. -/
theorem mapM_map_eq_some {α β : Type} {f : α → β} {g : β → Option α}
    (h : ∀ a, g (f a) = some a) (as : List α) : (as.map f).mapM g = some as :=
  mapM_eq_some (List.forall₂_map_right_iff.2 (List.forall₂_same.2 fun a _ => h a))

@[simp] theorem readString?_stringField (name : String) :
    readString? (stringField name) = some name :=
  Json.stringOf?_piecesOf name

@[simp] theorem readStrings?_stringsField (names : List String) :
    readStrings? (stringsField names) = some names :=
  mapM_map_eq_some readString?_stringField names

@[simp] theorem readCount?_countField {n : Nat} (h : n ≤ Number.maxInt.toNat) :
    readCount? (countField n) = some n := by
  simp [readCount?, countField, Json.Numeral.value?_ofNat h]

@[simp] theorem readOption?_countField {t : Option Nat} (h : ∀ n ∈ t, n ≤ Number.maxInt.toNat) :
    readOption? readCount? ((t.map countField).getD .null) = some t := by
  cases t with
  | none => rfl
  | some n =>
    have hn := readCount?_countField (h n rfl)
    simpa [readOption?, countField] using hn

@[simp] theorem readDialect?_name (d : Dialect) : readDialect? (stringField d.name) = some d := by
  rw [stringField, readDialect?, Json.stringOf?_piecesOf]
  cases d <;> rfl

/-- The fields of settings are those that a document may have, but the last one. -/
@[simp] theorem map_fst_document (s : Settings) : s.document.map Prod.fst = fieldNames.take 8 :=
  rfl

@[simp] theorem nodup_document (s : Settings) : (s.document.map Prod.fst).Nodup := by
  rw [map_fst_document]
  decide

/-- The names of a document are those of its fields. -/
theorem documentFields?_document (s : Settings) :
    documentFields? (.object (s.document.map fun f => (Json.piecesOf f.1, f.2))) =
      some s.document := by
  have hknown : s.document.filter (fun f => fieldNames.contains f.1) = s.document := by
    refine List.filter_eq_self.2 fun f hf => ?_
    have hmem : f.1 ∈ fieldNames.take 8 := map_fst_document s ▸ List.mem_map_of_mem hf
    simpa using List.mem_of_mem_take hmem
  have hread := mapM_map_eq_some (α := String × Json.Written)
    (f := fun f => (Json.piecesOf f.1, f.2)) (g := fun f => (Json.stringOf? f.1).map (·, f.2))
    (fun f => by simp) s.document
  simp only [documentFields?, hread, Option.bind_eq_bind, Option.bind_some, knownFields?, hknown]
  exact if_pos (nodup_document s)

/-- **The document of settings is read as these settings**, without the address. -/
theorem ofFields?_document (h : s.Fits) :
    ofFields? s.document = some { s with databaseUrl := none } := by
  simp [ofFields?, document, readOr?, List.lookup_cons, readCount?_countField h.pageSize_le,
    readCount?_countField h.insertChunkSize_le, readCount?_countField h.bodyLimit_le,
    readOption?_countField h.catalogTtl_le]

/-- **Settings that are saved are loaded again**, if they are in order and their counts fit. -/
theorem ofJson_compact (hsound : s.Sound) (hfits : s.Fits) :
    ofJson s.toJson.compact = .ok { s with databaseUrl := none } := by
  have hparse : Json.parseWritten? s.toJson.compact.toList =
      some (.object (s.document.map fun f => (Json.piecesOf f.1, f.2))) := by
    rw [Json.compact, String.toList_ofList]
    exact Json.parseWritten?_chars (written?_toJson s)
  have hsaved : Sound { s with databaseUrl := none } := { hsound with }
  rw [ofJson, hparse, Option.bind_some, documentFields?_document, Option.bind_some,
    ofFields?_document hfits]
  exact hsaved.checked_eq_ok_self

/-- **Loaded settings are in order**, they stay as they are when they are put in normal form again,
and their own text is loaded as the same settings without the address of the database. -/
theorem ofJson_sound {text : String} (h : ofJson text = .ok s) :
    s.Sound ∧ s.normalize = s ∧ ofJson s.toJson.compact = .ok { s with databaseUrl := none } := by
  obtain ⟨given, hfits, hchecked⟩ := ofJson_eq_ok h
  obtain ⟨rfl, hsound⟩ := checked_eq_ok.1 hchecked
  have hfits' : given.normalize.Fits := { hfits with }
  exact ⟨hsound, hsound.normalize_eq_self, ofJson_compact hsound hfits'⟩

/-- A document with a blank database, a method in small letters, one of them beyond ASCII, and the
greatest count. -/
theorem ofJson_sound_smallLetters :
    let text := "\x7b\"dialect\":\"pg\",\"main_db\":\"d\",\"databases\":[\"e\",\" \"]," ++
      "\"allowed_methods\":[\" poſt\"],\"page_size\":18446744073709551615," ++
      "\"database_url\":\"u\"\x7d"
    let s : Settings := {
      dialect := .postgres, mainDb := "d", databases := ["d", "e"]
      pageSize := 18446744073709551615, allowedMethods := ["POST"], databaseUrl := some "u" }
    ofJson text = .ok s ∧ s.Sound ∧ s.normalize = s ∧
      ofJson s.toJson.compact = .ok { s with databaseUrl := none } := by
  intro text s
  have hload : ofJson text = .ok s := by
    decide +kernel
  exact ⟨hload, ofJson_sound hload⟩

end TableApi.Settings
