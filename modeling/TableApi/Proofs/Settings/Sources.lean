import TableApi.Proofs.Outcome
import TableApi.Proofs.Settings.Saved

/-!
# Two sources of the same settings

Settings come from variables of the environment or from a document. Where both hold the same ones,
and the same name of a dialect that documents know, both give the same settings, or refuse them by
the same rule (`ofEnvironment_eq_ofJson`): a document gives the settings that it holds
(`IsDocument.ofJson_eq`), and so does the environment (`Environment.Spells.ofEnvironment_eq`), up to
one thing that normal form evens out. No databases are an empty list in a document. A variable that
spells an empty list counts as not set, and then the main database stands alone. A document that
holds settings is, for one, the text that they are saved as (`isDocument_compact`).

Each source has its names for a dialect. A document takes a name exactly as written. The environment
takes all names that documents know (`ofWord?_of_dialectOfName?`), and these in any case and with
blanks around them (`ofWord?_of_lowered`), so there are names with which only the environment is
loaded (`capitals_only_in_environment`).
-/

namespace TableApi.Settings

variable {s : Settings}

/-! ## Settings that both sources can hold -/

/-- A text without blanks at its ends, and not empty. -/
def IsTrimmed (name : String) : Prop :=
  name ≠ "" ∧ Text.trimmed name = name

instance (name : String) : Decidable (IsTrimmed name) :=
  inferInstanceAs (Decidable (_ ∧ _))

/-- A name that can be listed between commas. -/
def IsEntry (name : String) : Prop :=
  IsTrimmed name ∧ ',' ∉ name.toList

instance (name : String) : Decidable (IsEntry name) :=
  inferInstanceAs (Decidable (_ ∧ _))

/-- **Settings as they can be written down** in both sources, but for the dialect. -/
structure Plain (s : Settings) : Prop where
  mainDb : IsTrimmed s.mainDb
  databases : ∀ name ∈ s.databases, IsEntry name
  allowedMethods : s.allowedMethods ≠ [] ∧ ∀ name ∈ s.allowedMethods, IsEntry name
  counts : s.Fits
  databaseUrl : ∀ url ∈ s.databaseUrl, IsTrimmed url

/-- A name that documents know, once blanks and capitals are gone. -/
theorem ofWord?_of_lowered {name : String} {d : Dialect}
    (h : dialectOfName? (Text.lowered (Text.trimmed name)) = some d) :
    Dialect.ofWord? name = some d := by
  unfold dialectOfName? at h
  split at h
  case h_11 => cases h
  all_goals
    next hname =>
      obtain rfl := Option.some.inj h
      rw [Dialect.ofWord?, hname]
      rfl

/-- **A name of a dialect in documents** is one of the same dialect in the environment. -/
theorem ofWord?_of_dialectOfName? {name : String} {d : Dialect}
    (h : dialectOfName? name = some d) : Dialect.ofWord? name = some d := by
  unfold dialectOfName? at h
  split at h
  case h_11 => cases h
  all_goals
    cases h
    decide +kernel

/-- What comes out of the check depends on the normal form only. -/
theorem checked_congr {s' : Settings} (h : s.normalize = s'.normalize) :
    s.checked = s'.checked := by
  rw [checked, checked, h]

/-- **Settings are refused by a rule.** -/
theorem failsAs_checked (s : Settings) :
    FailsAs (fun e => ∃ why, e = ConfigError.validation why) s.checked := by
  have hvalidate : ∀ s : Settings,
      FailsAs (fun e => ∃ why, e = ConfigError.validation why) s.validate := by
    intro s
    unfold validate
    split_ifs
    · exact .error ⟨_, rfl⟩
    · exact .error ⟨_, rfl⟩
    · exact .error ⟨_, rfl⟩
    · exact .error ⟨_, rfl⟩
    · split
      · exact .error ⟨_, rfl⟩
      · exact .ok _
  unfold checked
  exact (hvalidate s.normalize).map _

/-! ## The environment -/

/-- **The environment spells the settings, with this name of the dialect**: counts by their digits,
and lists with a comma between each two names. No variable is set for what is left open, and none
either, perhaps, for an empty list. -/
structure Environment.Spells (env : Environment) (dialect : String) (s : Settings) : Prop where
  dialect : env.lookup (variableName "DIALECT") = some dialect
  mainDb : env.lookup (variableName "MAIN_DB") = some s.mainDb
  databases : (env.lookup (variableName "DATABASES")).getD "" = ",".intercalate s.databases
  pageSize : env.lookup (variableName "PAGE_SIZE") = some (toString s.pageSize)
  allowedMethods :
    env.lookup (variableName "ALLOWED_METHODS") = some (",".intercalate s.allowedMethods)
  insertChunkSize :
    env.lookup (variableName "INSERT_CHUNK_SIZE") = some (toString s.insertChunkSize)
  catalogTtl : env.lookup (variableName "CATALOG_TTL_SECS") = s.catalogTtl.map toString
  bodyLimit : env.lookup (variableName "BODY_LIMIT_BYTES") = some (toString s.bodyLimit)
  databaseUrl : env.lookup (variableName "DATABASE_URL") = s.databaseUrl
  /-- Without an address of the server's own, there is no common one either. -/
  common : s.databaseUrl = none → env.lookup "DATABASE_URL" = none

variable {env : Environment} {name dialect : String}

/-- A variable is read as it is, if it is trimmed. -/
theorem setValue?_eq {value : String} (h : env.lookup (variableName name) = some value)
    (hvalue : IsTrimmed value) : setValue? env name = some value := by
  simp [setValue?, h, hvalue.2, hvalue.1]

theorem setValue?_eq_none (h : env.lookup (variableName name) = none) :
    setValue? env name = none := by
  simp [setValue?, h]

@[simp] theorem trimmed_trimmed (word : String) :
    Text.trimmed (Text.trimmed word) = Text.trimmed word := by
  rw [Text.trimmed, Text.trimmed, String.toList_ofList, Text.trim_trim]

/-- Blanks around the name of a dialect make no difference. -/
@[simp] theorem ofWord?_trimmed (word : String) :
    Dialect.ofWord? (Text.trimmed word) = Dialect.ofWord? word := by
  rw [Dialect.ofWord?, Dialect.ofWord?, trimmed_trimmed]

theorem trimmed_ne_empty_of_ofWord? {word : String} {d : Dialect}
    (h : Dialect.ofWord? word = some d) : Text.trimmed word ≠ "" := by
  intro hblank
  rw [Dialect.ofWord?, hblank] at h
  exact absurd h (by decide +revert)

/-- The value of digits is the number that they write. -/
@[simp] theorem digitsValue_toDigits (n : Nat) : Text.digitsValue (Nat.toDigits 10 n) = n := by
  have hfold : ∀ (s : List Char) (m : Nat),
      s.foldl (fun n c => n * 10 + (c.toNat - 48)) m = Nat.ofDigitChars 10 s m := by
    intro s
    induction s with
    | nil => exact fun _ => rfl
    | cons c s ih =>
      intro m
      rw [List.foldl_cons, ih, Nat.ofDigitChars_cons, Nat.mul_comm]
      rfl
  rw [Text.digitsValue, hfold, Nat.ofDigitChars_ten_toDigits]

/-- **The digits of a count are read as it.** -/
theorem countOfText?_toString {n : Nat} (h : n ≤ Number.maxInt.toNat) :
    countOfText? (toString n).toList = some n := by
  have htext : (toString n).toList = Nat.toDigits 10 n := Nat.toList_repr
  have hdigits : ∀ c ∈ Nat.toDigits 10 n, c.isDigit = true := fun c hc =>
    Nat.isDigit_of_mem_toDigits (by omega) (by omega) hc
  have hne : Nat.toDigits 10 n ≠ [] := Nat.toDigits_ne_nil
  have hplus : (Nat.toDigits 10 n).head? ≠ some '+' := by
    intro hhead
    exact absurd (hdigits '+' (List.mem_of_mem_head? hhead)) (by decide)
  have hall : Text.isDigits (Nat.toDigits 10 n) = true := by
    simpa [Text.isDigits, hne] using hdigits
  rw [countOfText?, htext, if_neg hplus, Text.count?, digitsValue_toDigits, if_pos ⟨hall, h⟩]

@[simp] theorem isTrimmed_toString (n : Nat) : IsTrimmed (toString n) := by
  have htext : (toString n).toList = Nat.toDigits 10 n := Nat.toList_repr
  have hblank : ∀ c ∈ Nat.toDigits 10 n, Text.isBlank c = false := fun c hc =>
    Text.isBlank_of_isNameChar (by
      simp [Text.isNameChar, Char.isAlphanum, Nat.isDigit_of_mem_toDigits (by omega) (by omega) hc])
  refine ⟨fun hnil => ?_, ?_⟩
  · rw [hnil] at htext
    exact Nat.toDigits_ne_nil htext.symm
  · rw [Text.trimmed, htext, Text.trim_of_forall hblank, ← htext, String.ofList_toList]

theorem countOr_eq {α : Type} {default : α} {f : Nat → α} {n : Nat}
    (h : env.lookup (variableName name) = some (toString n)) (hn : n ≤ Number.maxInt.toNat) :
    countOr env name default f = .ok (f n) := by
  rw [countOr, setValue?_eq h (isTrimmed_toString n)]
  dsimp only
  rw [countOfText?_toString hn]

/-- The characters of names that are listed. -/
theorem toList_entries {names : List String} (h : ∀ name ∈ names, IsEntry name) :
    ∀ s ∈ names.map String.toList, s ≠ [] ∧ Text.trim s = s ∧ ',' ∉ s := by
  intro s hs
  obtain ⟨name, hname, rfl⟩ := List.mem_map.1 hs
  obtain ⟨⟨hne, htrim⟩, hcomma⟩ := h name hname
  exact ⟨String.toList_eq_nil_iff.not.2 hne, Text.trim_toList htrim, hcomma⟩

/-- A list of names is trimmed, unless it is empty. -/
theorem isTrimmed_intercalate {names : List String} (hne : names ≠ [])
    (h : ∀ name ∈ names, IsEntry name) : IsTrimmed (",".intercalate names) := by
  have hcomma : ",".toList = [','] := rfl
  refine ⟨?_, ?_⟩
  · obtain ⟨name, rest, rfl⟩ := List.exists_cons_of_ne_nil hne
    obtain ⟨⟨hname, -⟩, -⟩ := h name (List.mem_cons_self ..)
    cases rest with
    | nil => simpa using hname
    | cons next rest => simp [String.intercalate_cons_cons]
  · have htrim := @Text.trim_intercalate ',' _ fun s hs =>
      ⟨(toList_entries h s hs).1, (toList_entries h s hs).2.1⟩
    rw [Text.trimmed, String.toList_intercalate, hcomma, htrim, ← hcomma,
      ← String.toList_intercalate, String.ofList_toList]

/-- **Names between commas are read one by one.** -/
theorem splitList_intercalate {names : List String} (h : ∀ name ∈ names, IsEntry name) :
    splitList (",".intercalate names) = names := by
  have hcomma : ",".toList = [','] := rfl
  rw [splitList, String.toList_intercalate, hcomma,
    Query.trimmedPieces_intercalate (toList_entries h), List.map_map]
  exact (List.map_congr_left fun name _ => String.ofList_toList).trans (List.map_id _)

/-- **Without databases the main one stands alone**, as where it is the only one listed. -/
theorem normalize_no_databases (hmain : IsTrimmed s.mainDb) (hnone : s.databases = []) :
    normalize { s with databases := [s.mainDb] } = s.normalize := by
  have hnamed : isBlankText s.mainDb = false := by
    rw [isBlankText, hmain.2]
    simpa using hmain.1
  simp [normalize, normalDatabases, hnone, hnamed]

/-- The name of the dialect is read without the blanks around it. -/
theorem Environment.Spells.required_dialect (h : env.Spells dialect s)
    (hname : Text.trimmed dialect ≠ "") : required env "DIALECT" = .ok (Text.trimmed dialect) := by
  rw [required, setValue?, h.dialect, Option.map_some, Option.filter_some,
    if_pos (by simpa using hname)]

/-- **A name that the environment does not know is refused.** -/
theorem Environment.Spells.ofEnvironment_eq_error (h : env.Spells dialect s)
    (hdialect : Dialect.ofWord? dialect = none) :
    (Text.trimmed dialect = "" ∧
        ofEnvironment env = .error (.load (.unset (variableName "DIALECT")))) ∨
      ofEnvironment env = .error (.unknownDialect (Text.lowered (Text.trimmed dialect))) := by
  by_cases hname : Text.trimmed dialect = ""
  · refine .inl ⟨hname, ?_⟩
    have hunset : required env "DIALECT" = .error (.load (.unset (variableName "DIALECT"))) := by
      rw [required, setValue?, h.dialect, Option.map_some, hname]
      rfl
    rw [ofEnvironment, hunset]
    rfl
  · have hrefused : parseDialect (Text.trimmed dialect) =
        .error (.unknownDialect (Text.lowered (Text.trimmed dialect))) := by
      rw [parseDialect, ofWord?_trimmed, hdialect, trimmed_trimmed]
    refine .inr ?_
    rw [ofEnvironment, h.required_dialect hname, ok_bind, hrefused]
    rfl

theorem Environment.Spells.environmentUrl?_eq (h : env.Spells dialect s) (hs : s.Plain) :
    environmentUrl? env = s.databaseUrl := by
  have hown := h.databaseUrl
  rw [environmentUrl?]
  cases hgiven : s.databaseUrl with
  | none => simp [setValue?_eq_none (hown.trans hgiven), h.common hgiven]
  | some url => simp [setValue?_eq (hown.trans hgiven) (hs.databaseUrl url hgiven)]

theorem Environment.Spells.countOr_catalogTtl (h : env.Spells dialect s) (hs : s.Plain) :
    countOr env "CATALOG_TTL_SECS" none some = .ok s.catalogTtl := by
  have hvariable := h.catalogTtl
  cases hgiven : s.catalogTtl with
  | none => simp [countOr, setValue?_eq_none (hvariable.trans (congrArg _ hgiven))]
  | some ttl =>
    exact countOr_eq (hvariable.trans (congrArg _ hgiven)) (hs.counts.catalogTtl_le ttl hgiven)

/-- No databases are spelled by no text, so the variable counts as not set. -/
theorem Environment.Spells.setValue?_no_databases (h : env.Spells dialect s)
    (hnone : s.databases = []) : setValue? env "DATABASES" = none := by
  have hempty := h.databases
  rw [hnone] at hempty
  rw [setValue?]
  cases hlookup : env.lookup (variableName "DATABASES") with
  | none => rfl
  | some value =>
    rw [hlookup] at hempty
    obtain rfl : value = "" := hempty
    rfl

theorem Environment.Spells.setValue?_databases (h : env.Spells dialect s) (hs : s.Plain)
    (hsome : s.databases ≠ []) :
    setValue? env "DATABASES" = some (",".intercalate s.databases) := by
  have htrimmed := isTrimmed_intercalate hsome hs.databases
  have hlist := h.databases
  refine setValue?_eq ?_ htrimmed
  cases hlookup : env.lookup (variableName "DATABASES") with
  | none =>
    rw [hlookup] at hlist
    exact absurd hlist.symm htrimmed.1
  | some value =>
    rw [hlookup] at hlist
    exact congrArg some hlist

/-- **The environment gives the settings that it spells**, where it knows the dialect. -/
theorem Environment.Spells.ofEnvironment_eq (h : env.Spells dialect s) (hs : s.Plain)
    (hdialect : Dialect.ofWord? dialect = some s.dialect) : ofEnvironment env = s.checked := by
  have hmain : required env "MAIN_DB" = .ok s.mainDb := by
    rw [required, setValue?_eq h.mainDb hs.mainDb]
  have hrequired := h.required_dialect (trimmed_ne_empty_of_ofWord? hdialect)
  have hparsed : parseDialect (Text.trimmed dialect) = .ok s.dialect := by
    rw [parseDialect, ofWord?_trimmed, hdialect]
  have hmethods : setValue? env "ALLOWED_METHODS" = some (",".intercalate s.allowedMethods) :=
    setValue?_eq h.allowedMethods (isTrimmed_intercalate hs.allowedMethods.1 hs.allowedMethods.2)
  have hread : ∀ databases,
      ((setValue? env "DATABASES").map splitList).getD [s.mainDb] = databases →
      ofEnvironment env = checked { s with databases } := by
    rintro databases rfl
    simp only [ofEnvironment, hrequired, hmain, hparsed, hmethods, h.environmentUrl?_eq hs,
      h.countOr_catalogTtl hs, ofMain, ok_bind, countOr_eq h.pageSize hs.counts.pageSize_le,
      countOr_eq h.insertChunkSize hs.counts.insertChunkSize_le,
      countOr_eq h.bodyLimit hs.counts.bodyLimit_le, Option.map_some, Option.getD_some,
      splitList_intercalate hs.allowedMethods.2, id]
  by_cases hnone : s.databases = []
  · rw [hread [s.mainDb] (by simp [h.setValue?_no_databases hnone])]
    exact checked_congr (normalize_no_databases hs.mainDb hnone)
  · exact hread s.databases (by
      simp [h.setValue?_databases hs hnone, splitList_intercalate hs.databases])

/-! ## The document -/

/-- A string of a document, however its characters are written. -/
def IsString (name : String) (w : Json.Written) : Prop :=
  ∃ pieces, w = .string pieces ∧ Json.stringOf? pieces = some name

/-- A list of strings of a document. -/
def IsStrings (names : List String) (w : Json.Written) : Prop :=
  ∃ items, w = .array items ∧ List.Forall₂ IsString names items

/-- A field that is left out or null where there is no value for it. -/
def IsOption {α : Type} (p : α → Json.Written → Prop) (x : Option α) (w : Option Json.Written) :
    Prop :=
  match x with
  | some a => ∃ value ∈ w, p a value
  | none => ∀ value ∈ w, value = .null

/-- **The fields of a document hold the settings, with this name of the dialect**: each of them
once, in any order, counts by their digits. -/
structure HeldBy (dialect : String) (s : Settings) (fields : List (String × Json.Written)) :
    Prop where
  nodup : (fields.map Prod.fst).Nodup
  dialect : ∃ w ∈ fields.lookup "dialect", IsString dialect w
  mainDb : ∃ w ∈ fields.lookup "main_db", IsString s.mainDb w
  databases : ∃ w ∈ fields.lookup "databases", IsStrings s.databases w
  pageSize : fields.lookup "page_size" = some (countField s.pageSize)
  allowedMethods : ∃ w ∈ fields.lookup "allowed_methods", IsStrings s.allowedMethods w
  insertChunkSize : fields.lookup "insert_chunk_size" = some (countField s.insertChunkSize)
  catalogTtl :
    IsOption (fun n w => w = countField n) s.catalogTtl (fields.lookup "catalog_ttl_secs")
  bodyLimit : fields.lookup "body_limit_bytes" = some (countField s.bodyLimit)
  databaseUrl : IsOption IsString s.databaseUrl (fields.lookup "database_url")

/-- **The text is a document of these fields**, with any blanks, and the keys written in any way. -/
def IsDocument (fields : List (String × Json.Written)) (text : String) : Prop :=
  ∃ written, Json.parseWritten? text.toList = some (.object written) ∧
    List.Forall₂ (fun f w => Json.stringOf? w.1 = some f.1 ∧ w.2 = f.2) fields written

variable {fields : List (String × Json.Written)} {text : String}

/-- The fields that are passed over make no difference to the others. -/
theorem lookup_known {name : String} (hname : name ∈ fieldNames) :
    (fields.filter fun f => fieldNames.contains f.1).lookup name = fields.lookup name := by
  induction fields with
  | nil => rfl
  | cons f fields ih =>
    obtain ⟨key, value⟩ := f
    by_cases hsame : name = key
    · subst hsame
      simp [hname]
    · have hother : (name == key) = false := beq_false_of_ne hsame
      by_cases hknown : key ∈ fieldNames <;>
        simpa [hknown, List.lookup_cons, hother] using ih

/-- Settings are those of the fields that are known. -/
@[simp] theorem ofFields?_known :
    ofFields? (fields.filter fun f => fieldNames.contains f.1) = ofFields? fields := by
  simp (disch := decide) only [ofFields?, readOr?, lookup_known]

theorem readOr?_eq {α : Type} {name : String} {default x : α} {read : Json.Written → Option α}
    {w : Json.Written} (h : fields.lookup name = some w) (hread : read w = some x) :
    readOr? fields name default read = some x := by
  rw [readOr?, h]
  exact hread

/-- A field that may be left out or null is read. -/
theorem readOr?_of_isOption {α : Type} {name : String} {x : Option α}
    {p : α → Json.Written → Prop} {read : Json.Written → Option α}
    (h : IsOption p x (fields.lookup name)) (hnull : read .null = none)
    (hread : ∀ a ∈ x, ∀ w, p a w → read w = some a) :
    readOr? fields name none (readOption? read) = some x := by
  cases x with
  | none =>
    cases hlookup : fields.lookup name with
    | none => rw [readOr?, hlookup]
    | some w =>
      obtain rfl : w = .null := h w hlookup
      exact readOr?_eq hlookup rfl
  | some a =>
    obtain ⟨w, hlookup, hw⟩ := h
    have ha : read w = some a := hread a rfl w hw
    have hne : w ≠ .null := by
      rintro rfl
      exact absurd (hnull.symm.trans ha) (by simp)
    exact readOr?_eq hlookup (by simp [readOption?, ha])

theorem IsString.readString? {name : String} {w : Json.Written} (h : IsString name w) :
    readString? w = some name := by
  obtain ⟨pieces, rfl, hpieces⟩ := h
  exact hpieces

theorem IsStrings.readStrings? {names : List String} {w : Json.Written} (h : IsStrings names w) :
    readStrings? w = some names := by
  obtain ⟨items, rfl, hitems⟩ := h
  exact mapM_eq_some (hitems.imp fun _ _ hitem => hitem.readString?)

theorem HeldBy.readDialect?_eq (h : HeldBy dialect s fields) :
    (fields.lookup "dialect").bind readDialect? = dialectOfName? dialect := by
  obtain ⟨w, hlookup, pieces, rfl, hpieces⟩ := h.dialect
  rw [Option.mem_def.1 hlookup, Option.bind_some, readDialect?, hpieces, Option.bind_some]

/-- **The fields of a document are read as the settings that they hold**, where the dialect is
known. -/
theorem HeldBy.ofFields?_eq (h : HeldBy dialect s fields) (hs : s.Plain)
    (hname : dialectOfName? dialect = some s.dialect) : ofFields? fields = some s := by
  have hdialect := h.readDialect?_eq.trans hname
  have hmain : (fields.lookup "main_db").bind readString? = some s.mainDb := by
    obtain ⟨w, hlookup, hw⟩ := h.mainDb
    rw [hlookup]
    exact hw.readString?
  have hnames : ∀ {name names default}, (∃ w ∈ fields.lookup name, IsStrings names w) →
      readOr? fields name default readStrings? = some names := by
    rintro name names default ⟨w, hlookup, hw⟩
    exact readOr?_eq hlookup hw.readStrings?
  have httl : readOr? fields "catalog_ttl_secs" none (readOption? readCount?) =
      some s.catalogTtl :=
    readOr?_of_isOption h.catalogTtl rfl fun n hn w hw =>
      hw ▸ readCount?_countField (hs.counts.catalogTtl_le n hn)
  have hurl : readOr? fields "database_url" none (readOption? readString?) = some s.databaseUrl :=
    readOr?_of_isOption h.databaseUrl rfl fun _ _ _ hw => hw.readString?
  simp only [ofFields?, hdialect, hmain, hnames h.databases, hnames h.allowedMethods, httl, hurl,
    readOr?_eq h.pageSize (readCount?_countField hs.counts.pageSize_le),
    readOr?_eq h.insertChunkSize (readCount?_countField hs.counts.insertChunkSize_le),
    readOr?_eq h.bodyLimit (readCount?_countField hs.counts.bodyLimit_le)]
  rfl

/-- The fields of a document are those that are read. -/
theorem IsDocument.bind_ofFields? (htext : IsDocument fields text)
    (h : (fields.map Prod.fst).Nodup) :
    ((Json.parseWritten? text.toList).bind documentFields?).bind ofFields? =
      ofFields? fields := by
  obtain ⟨written, hparse, hwritten⟩ := htext
  have hnamed : (written.mapM fun f => (Json.stringOf? f.1).map (·, f.2)) = some fields :=
    mapM_eq_some (hwritten.imp fun f w hw => by simp [hw.1, hw.2])
  have hnodup : ((fields.filter fun f => fieldNames.contains f.1).map Prod.fst).Nodup :=
    h.sublist (List.filter_sublist.map _)
  have hfields : documentFields? (.object written) =
      some (fields.filter fun f => fieldNames.contains f.1) := by
    simp only [documentFields?, hnamed, Option.bind_eq_bind, Option.bind_some, knownFields?]
    exact if_pos hnodup
  rw [hparse, Option.bind_some, hfields, Option.bind_some, ofFields?_known]

/-- **A document gives the settings that it holds**, where the dialect is known. -/
theorem IsDocument.ofJson_eq (htext : IsDocument fields text) (h : HeldBy dialect s fields)
    (hs : s.Plain) (hname : dialectOfName? dialect = some s.dialect) :
    ofJson text = s.checked := by
  rw [ofJson, htext.bind_ofFields? h.nodup, h.ofFields?_eq hs hname]

/-- **A document with any other name of a dialect is not loaded.** -/
theorem IsDocument.ofJson_eq_error (htext : IsDocument fields text) (h : HeldBy dialect s fields)
    (hname : dialectOfName? dialect = none) : ∃ why, ofJson text = .error (.load why) := by
  have hnone : ofFields? fields = none := by
    rw [ofFields?, h.readDialect?_eq, hname]
    rfl
  rw [ofJson, htext.bind_ofFields? h.nodup, hnone]
  exact ⟨_, rfl⟩

/-! ## The text of settings -/

@[simp] theorem isString_stringField (name : String) : IsString name (stringField name) :=
  ⟨_, rfl, Json.stringOf?_piecesOf name⟩

@[simp] theorem isStrings_stringsField (names : List String) :
    IsStrings names (stringsField names) :=
  ⟨_, rfl, List.forall₂_map_right_iff.2 (List.forall₂_same.2 fun name _ =>
    isString_stringField name)⟩

/-- The settings' own text, but with this name of the dialect. -/
def toJsonAs (dialect : String) (s : Settings) : Json :=
  match s.toJson with
  | .object (_ :: rest) => .object (("dialect", .string dialect) :: rest)
  | v => v

/-- The fields of that text. -/
def documentAs (dialect : String) (s : Settings) : List (String × Json.Written) :=
  ("dialect", stringField dialect) :: s.document.tail

/-- This document holds the settings, but for the address. -/
theorem heldBy_documentAs (dialect : String) (hurl : s.databaseUrl = none) :
    HeldBy dialect s (s.documentAs dialect) where
  nodup := nodup_document s
  dialect := ⟨_, rfl, isString_stringField _⟩
  mainDb := ⟨_, rfl, isString_stringField _⟩
  databases := ⟨_, rfl, isStrings_stringsField _⟩
  pageSize := rfl
  allowedMethods := ⟨_, rfl, isStrings_stringsField _⟩
  insertChunkSize := rfl
  catalogTtl := by
    have hlookup : (s.documentAs dialect).lookup "catalog_ttl_secs" =
        some ((s.catalogTtl.map countField).getD .null) := rfl
    rw [hlookup]
    cases s.catalogTtl with
    | none => exact fun w hw => (Option.some.inj hw).symm
    | some n => exact ⟨_, rfl, rfl⟩
  bodyLimit := rfl
  databaseUrl := by
    rw [hurl]
    rintro w ⟨⟩

/-- **The text is this document.** -/
theorem isDocument_compact (dialect : String) (s : Settings) :
    IsDocument (s.documentAs dialect) (s.toJsonAs dialect).compact := by
  have hchars : (s.toJsonAs dialect).compact.toList = (s.toJsonAs dialect).chars :=
    String.toList_ofList
  have hwritten : (s.toJsonAs dialect).written? =
      some (.object ((s.documentAs dialect).map fun f => (Json.piecesOf f.1, f.2))) := by
    obtain ⟨ws, hws, hobject⟩ := Option.map_eq_some_iff.1 (written?_toJson s)
    obtain ⟨w, -, us, hus, rfl⟩ := Json.fieldsWritten?_cons.1 hws
    obtain ⟨-, rfl⟩ := List.cons.inj (Json.Written.object.inj hobject)
    exact Option.map_eq_some_iff.2 ⟨_, Json.fieldsWritten?_cons.2 ⟨_, rfl, _, hus, rfl⟩, rfl⟩
  refine ⟨(s.documentAs dialect).map fun f => (Json.piecesOf f.1, f.2), ?_, ?_⟩
  · rw [hchars]
    exact Json.parseWritten?_chars hwritten
  · exact List.forall₂_map_right_iff.2 (List.forall₂_same.2 fun f _ =>
      ⟨Json.stringOf?_piecesOf f.1, rfl⟩)

/-! ## Both -/

theorem checked_eq (s : Settings) :
    s.checked = .ok s.normalize ∨ ∃ why, s.checked = .error (.validation why) := by
  cases hchecked : s.checked with
  | ok loaded =>
    obtain ⟨rfl, -⟩ := checked_eq_ok.1 hchecked
    exact .inl rfl
  | error e =>
    obtain ⟨why, rfl⟩ := failsAs_checked s e hchecked
    exact .inr ⟨why, rfl⟩

/-- **Both sources give the same settings**, where both hold them with one name of the dialect that
documents know, or refuse them by the same rule. A name that is one of these but for capitals and
blanks around it is good in the environment only, and a name that the environment does not know is
refused by both. -/
theorem ofEnvironment_eq_ofJson (hs : s.Plain) (henv : env.Spells dialect s)
    (hfields : HeldBy dialect s fields) (htext : IsDocument fields text) :
    (dialectOfName? dialect = some s.dialect → ofEnvironment env = ofJson text ∧
        (ofJson text = .ok s.normalize ∨ ∃ why, ofJson text = .error (.validation why))) ∧
      (dialectOfName? dialect = none →
        dialectOfName? (Text.lowered (Text.trimmed dialect)) = some s.dialect →
          (∃ why, ofJson text = .error (.load why)) ∧
            (ofEnvironment env = .ok s.normalize ∨
              ∃ why, ofEnvironment env = .error (.validation why))) ∧
      (Dialect.ofWord? dialect = none →
        (∃ why, ofJson text = .error (.load why)) ∧
          ((Text.trimmed dialect = "" ∧
              ofEnvironment env = .error (.load (.unset (variableName "DIALECT")))) ∨
            ofEnvironment env =
              .error (.unknownDialect (Text.lowered (Text.trimmed dialect))))) := by
  refine ⟨fun hname => ?_, fun hname hlowered => ?_, fun hword => ?_⟩
  · have hjson := htext.ofJson_eq hfields hs hname
    have henvironment := henv.ofEnvironment_eq hs (ofWord?_of_dialectOfName? hname)
    exact ⟨henvironment.trans hjson.symm, hjson ▸ checked_eq s⟩
  · have henvironment := henv.ofEnvironment_eq hs (ofWord?_of_lowered hlowered)
    exact ⟨htext.ofJson_eq_error hfields hname, henvironment ▸ checked_eq s⟩
  · have hname : dialectOfName? dialect = none := by
      cases hname : dialectOfName? dialect with
      | none => rfl
      | some d => exact absurd (ofWord?_of_dialectOfName? hname) (by simp [hword])
    exact ⟨htext.ofJson_eq_error hfields hname, henv.ofEnvironment_eq_error hword⟩

/-- Settings of a shop: no databases but the main one, and a method in small letters. -/
def shop : Settings := {
  dialect := .mysql, mainDb := "shop", databases := [], pageSize := 7
  allowedMethods := ["GET", "post"], catalogTtl := some 60, bodyLimit := 0 }

/-- The environment that spells them, with this name of the dialect. -/
def shopEnvironment (dialect : String) : Environment :=
  [("RESTAPI_DIALECT", dialect), ("RESTAPI_MAIN_DB", "shop"), ("RESTAPI_PAGE_SIZE", "7"),
    ("RESTAPI_ALLOWED_METHODS", "GET,post"), ("RESTAPI_INSERT_CHUNK_SIZE", "30"),
    ("RESTAPI_CATALOG_TTL_SECS", "60"), ("RESTAPI_BODY_LIMIT_BYTES", "0")]

theorem plain_shop : shop.Plain where
  mainDb := by decide
  databases := by decide
  allowedMethods := by decide
  counts := ⟨by decide, by decide, by decide, by decide⟩
  databaseUrl := by decide

theorem spells_shop (dialect : String) : (shopEnvironment dialect).Spells dialect shop := by
  have hcount : ∀ {name value : String} {n : Nat},
      (shopEnvironment dialect).lookup (variableName name) = some value → toString n = value →
        (shopEnvironment dialect).lookup (variableName name) = some (toString n) := by
    rintro name value n h rfl
    exact h
  exact {
    dialect := rfl
    mainDb := rfl
    databases := rfl
    pageSize := hcount rfl (by decide)
    allowedMethods := rfl
    insertChunkSize := hcount rfl (by decide)
    catalogTtl := hcount rfl (by decide)
    bodyLimit := hcount rfl (by decide)
    databaseUrl := rfl
    common := fun _ => rfl }

/-- The settings of the shop under another name of their dialect, from both sources. -/
theorem ofEnvironment_eq_ofJson_no_databases :
    let env := shopEnvironment "mariadb"
    let text := (shop.toJsonAs "mariadb").compact
    shop.Plain ∧ env.Spells "mariadb" shop ∧ HeldBy "mariadb" shop (shop.documentAs "mariadb") ∧
      IsDocument (shop.documentAs "mariadb") text ∧ ofEnvironment env = ofJson text ∧
        (ofJson text = .ok shop.normalize ∨ ∃ why, ofJson text = .error (.validation why)) := by
  intro env text
  have hfields := heldBy_documentAs "mariadb" (s := shop) rfl
  have htext : IsDocument (shop.documentAs "mariadb") text := isDocument_compact "mariadb" shop
  have hboth := ofEnvironment_eq_ofJson plain_shop (spells_shop "mariadb") hfields htext
  exact ⟨plain_shop, spells_shop "mariadb", hfields, htext, hboth.1 rfl⟩

/-- **A name in capitals is good in the environment only.** -/
theorem capitals_only_in_environment :
    let env := shopEnvironment "MySQL"
    let text := (shop.toJsonAs "MySQL").compact
    (shop.Plain ∧ env.Spells "MySQL" shop ∧ HeldBy "MySQL" shop (shop.documentAs "MySQL") ∧
        IsDocument (shop.documentAs "MySQL") text) ∧
      ofEnvironment env = .ok shop.normalize ∧ ∃ why, ofJson text = .error (.load why) := by
  intro env text
  have hfields := heldBy_documentAs "MySQL" (s := shop) rfl
  have htext : IsDocument (shop.documentAs "MySQL") text := isDocument_compact "MySQL" shop
  have hchecked : shop.checked = .ok shop.normalize := by decide +kernel
  have henv := (spells_shop "MySQL").ofEnvironment_eq plain_shop (by decide +kernel)
  exact ⟨⟨plain_shop, spells_shop "MySQL", hfields, htext⟩, henv.trans hchecked,
    htext.ofJson_eq_error hfields rfl⟩

end TableApi.Settings
