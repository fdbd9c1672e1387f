import TableApi.Proofs.Filter.Brackets
import TableApi.Proofs.Filter.Padding

/-!
# Blanks in lists

The values of a list may be written with blanks around them. A bare word loses them, like every
other character that is no word character. A quoted value does not: a member of a list with a quote
in it is kept with all that stands between its commas, so the blanks outside the quotes become part
of the text (`tokenize_spaced`). A list reads the same with and without its blanks exactly where
none stand beside a quoted value.
-/

namespace TableApi.Filter

/-- **A value of a list** with what is written before and after it. -/
structure Entry where
  before : List Char
  value : Atom
  after : List Char

namespace Entry

/-- The entry as it is written. -/
def written (e : Entry) : List Char :=
  e.before ++ (e.value.written ++ e.after)

/-- The value alone. -/
def alone (e : Entry) : Entry :=
  ⟨[], e.value, []⟩

/-- **A word or a quoted text without brackets, with blanks around it.** The word is made of word
characters; hyphens may stand in a row. -/
structure WellFormed (e : Entry) : Prop where
  before : ∀ c ∈ e.before, Text.isBlank c = true
  after : ∀ c ∈ e.after, Text.isBlank c = true
  value :
    match e.value with
    | .bare w => ∀ c ∈ w.toList, isWordChar c = true
    | .quoted s => '\'' ∉ s.toList ∧ '[' ∉ s.toList ∧ ']' ∉ s.toList

/-- **What a list makes of an entry**: a word without its blanks and repeated hyphens, unless that
leaves nothing, and a quoted text together with its blanks. -/
def atom? (e : Entry) : Option Atom :=
  match e.value with
  | .bare w =>
    if w = "" then none else some (.bare (String.ofList (Text.squeezeHyphens w.toList)))
  | .quoted s => some (.quoted (String.ofList (e.before ++ (s.toList ++ e.after))))

/-- **No blanks stand beside quotes.** -/
def Tight (e : Entry) : Prop :=
  match e.value with
  | .bare _ => True
  | .quoted _ => e.before = [] ∧ e.after = []

/-- An entry as a member of a list. -/
def member (e : Entry) : Member :=
  match e.value with
  | .bare w => ⟨e.before ++ (w.toList ++ e.after), false⟩
  | .quoted s => ⟨e.before ++ (s.toList ++ e.after), true⟩

variable {e : Entry}

theorem WellFormed.alone (h : e.WellFormed) : e.alone.WellFormed :=
  ⟨by simp [Entry.alone], by simp [Entry.alone], h.value⟩

theorem WellFormed.padded (h : e.WellFormed) :
    (∀ c ∈ e.before, isPadding c = true) ∧ ∀ c ∈ e.after, isPadding c = true :=
  ⟨fun c hc => isPadding_of_isBlank (h.before c hc),
    fun c hc => isPadding_of_isBlank (h.after c hc)⟩

theorem WellFormed.unbracketed (h : e.WellFormed) : ∀ c ∈ e.written, isBracket c = false := by
  have hpad : ∀ {s : List Char}, (∀ c ∈ s, isPadding c = true) → ∀ c ∈ s, isBracket c = false :=
    fun hs => isBracket_of_not_mem (not_mem_of_isPadding hs (by decide))
      (not_mem_of_isPadding hs (by decide))
  obtain ⟨before, value, after⟩ := e
  rw [written, List.forall_mem_append, List.forall_mem_append]
  refine ⟨hpad h.padded.1, ?_, hpad h.padded.2⟩
  cases value with
  | bare w =>
    exact isBracket_of_not_mem (not_mem_of_wordChars h.value (by decide))
      (not_mem_of_wordChars h.value (by decide))
  | quoted s =>
    obtain ⟨-, hopen, hclose⟩ := h.value
    exact isBracket_of_not_mem (by simp [Atom.written, hopen]) (by simp [Atom.written, hclose])

theorem WellFormed.isMember (h : e.WellFormed) : IsMember e.written e.member := by
  obtain ⟨hbefore, hafter⟩ := h.padded
  have hpad : ∀ {s : List Char}, (∀ c ∈ s, isPadding c = true) → '\'' ∉ s ∧ ',' ∉ s := fun hs =>
    ⟨not_mem_of_isPadding hs (by decide), not_mem_of_isPadding hs (by decide)⟩
  obtain ⟨before, value, after⟩ := e
  intro rest hrest
  have hend : members false (after ++ rest) = (⟨after, false⟩, (members false rest).2) := by
    rw [members_plain (hpad hafter).1 (hpad hafter).2, hrest, List.append_nil]
  rw [written, List.append_assoc, members_plain (hpad hbefore).1 (hpad hbefore).2]
  cases value with
  | bare w =>
    have hword : '\'' ∉ w.toList ∧ ',' ∉ w.toList :=
      ⟨not_mem_of_wordChars h.value (by decide), not_mem_of_wordChars h.value (by decide)⟩
    simp [Atom.written, member, members_plain hword.1 hword.2, hend]
  | quoted s =>
    have hquoted := members_quoted h.value.1 (after ++ rest)
    simp [Atom.written, member, members, hquoted, hend]

/-- The member is read as the entry says. -/
theorem WellFormed.atom?_member (h : e.WellFormed) : e.member.atom? = e.atom? := by
  obtain ⟨hbefore, hafter⟩ := h.padded
  have hdropped : ∀ {s : List Char}, (∀ c ∈ s, isPadding c = true) → s.filter isWordChar = [] := by
    intro s hs
    simpa using fun c hc => (isPadding_iff.1 (hs c hc)).1
  obtain ⟨before, value, after⟩ := e
  cases value with
  | quoted s => rfl
  | bare w =>
    have hfilter : (before ++ (w.toList ++ after)).filter isWordChar = w.toList := by
      rw [List.filter_append, List.filter_append, hdropped hbefore, hdropped hafter,
        List.filter_eq_self.2 h.value]
      simp
    have hkept : Text.sanitize wordMarks (before ++ (w.toList ++ after)) =
        Text.squeezeHyphens w.toList := congrArg Text.squeezeHyphens hfilter
    have hempty : Text.squeezeHyphens w.toList = [] ↔ w = "" := by
      rw [← List.head?_eq_none_iff, Text.head?_squeezeHyphens, List.head?_eq_none_iff,
        String.toList_eq_nil_iff]
    simp [member, Member.atom?, atom?, hkept, hempty]

/-- An entry is read as its value alone is, unless blanks stand beside quotes. -/
theorem atom?_alone : e.alone.atom? = e.atom? ↔ e.Tight := by
  obtain ⟨before, value, after⟩ := e
  cases value with
  | bare w => simp [alone, atom?, Tight]
  | quoted s =>
    simp only [alone, atom?, Tight, Option.some.injEq, Atom.quoted.injEq, String.ofList_inj,
      List.nil_append, List.append_nil]
    constructor
    · intro h
      have hlength := congrArg List.length h
      simp only [List.length_append] at hlength
      exact ⟨List.length_eq_zero_iff.1 (by omega), List.length_eq_zero_iff.1 (by omega)⟩
    · rintro ⟨rfl, rfl⟩
      simp

/-- The value alone is dropped where the entry is. -/
@[simp] theorem isSome_atom?_alone (e : Entry) : e.alone.atom?.isSome = e.atom?.isSome := by
  obtain ⟨before, value, after⟩ := e
  cases value <;> rfl

end Entry

/-- Where the same members are kept, all are the same if what is kept is. -/
theorem filterMap_eq_iff {α β : Type} {f g : α → Option β} {xs : List α}
    (h : ∀ x ∈ xs, (f x).isSome = (g x).isSome) :
    xs.filterMap f = xs.filterMap g ↔ ∀ x ∈ xs, f x = g x := by
  refine ⟨fun heq => ?_, List.filterMap_congr⟩
  induction xs with
  | nil => simp
  | cons x xs ih =>
    obtain ⟨hx, hxs⟩ := List.forall_mem_cons.1 h
    cases hf : f x with
    | none =>
      have hg : g x = none := by simpa [hf] using hx
      rw [List.filterMap_cons_none hf, List.filterMap_cons_none hg] at heq
      exact List.forall_mem_cons.2 ⟨hf.trans hg.symm, ih hxs heq⟩
    | some b =>
      obtain ⟨b', hg⟩ := Option.isSome_iff_exists.1 (hx ▸ (by simp [hf] : (f x).isSome = true))
      rw [List.filterMap_cons_some hf, List.filterMap_cons_some hg] at heq
      obtain ⟨rfl, hrest⟩ := List.cons.inj heq
      exact List.forall_mem_cons.2 ⟨hf.trans hg.symm, ih hxs hrest⟩

/-- **A list as it is written**, with a comma between each two of its entries. -/
def listText (entries : List Entry) : String :=
  String.ofList ('[' :: ([','].intercalate (entries.map Entry.written) ++ [']']))

variable {entries : List Entry}

/-- The entries are the members of the list. -/
theorem tokenize_listText (h : ∀ e ∈ entries, e.WellFormed) (rest : String) :
    tokenize (listText entries ++ rest) =
      .list (entries.filterMap Entry.atom?) :: tokenize rest := by
  have hatoms : (entries.map Entry.member).filterMap Member.atom? =
      entries.filterMap Entry.atom? := by
    rw [List.filterMap_map]
    exact List.filterMap_congr fun e he => (h e he).atom?_member
  have hscan := scan_list (isBracket_intercalate fun e he => (h e he).unbracketed) rest.toList
  rw [listAtoms_intercalate fun e he => (h e he).isMember, hatoms] at hscan
  rw [tokenize, tokenize, listText, String.toList_append, String.toList_ofList]
  simpa using hscan

/-- **Blanks in a list.** A list of words and quoted texts with blanks around them gives one token,
whatever follows the list: its words without their blanks, and its quoted texts with theirs. It is
the token of the list without blanks if and only if none stand beside a quoted text. -/
theorem tokenize_spaced (h : ∀ e ∈ entries, e.WellFormed) (rest : String) :
    tokenize (listText entries ++ rest) =
        .list (entries.filterMap Entry.atom?) :: tokenize rest ∧
      (tokenize (listText entries ++ rest) = tokenize (listText (entries.map Entry.alone) ++ rest) ↔
        ∀ e ∈ entries, e.Tight) := by
  have halone : ∀ e ∈ entries.map Entry.alone, e.WellFormed :=
    List.forall_mem_map.2 fun e he => (h e he).alone
  refine ⟨tokenize_listText h rest, ?_⟩
  rw [tokenize_listText h, tokenize_listText halone, List.filterMap_map]
  calc Token.list (entries.filterMap Entry.atom?) :: tokenize rest =
        .list (entries.filterMap (Entry.atom? ∘ Entry.alone)) :: tokenize rest
      ↔ entries.filterMap (Entry.atom? ∘ Entry.alone) = entries.filterMap Entry.atom? := by
        simp [eq_comm]
    _ ↔ ∀ e ∈ entries, (Entry.atom? ∘ Entry.alone) e = e.atom? :=
        filterMap_eq_iff fun e _ => e.isSome_atom?_alone
    _ ↔ ∀ e ∈ entries, e.Tight := forall₂_congr fun _ _ => Entry.atom?_alone

/-- Words lose their blanks and repeated hyphens; the blanks inside quotes are the text's own. -/
theorem tokenize_spaced_words :
    (∀ e ∈ [⟨[' '], .bare "a--b", ['\t']⟩, ⟨[], .quoted " c ", []⟩], Entry.WellFormed e) ∧
      tokenize "[ a--b\t,' c ']" = [.list [.bare "a-b", .quoted " c "]] ∧
      tokenize "[ a--b\t,' c ']" = tokenize "[a--b,' c ']" := by
  have hentries : ∀ e ∈ [⟨[' '], .bare "a--b", ['\t']⟩, ⟨[], .quoted " c ", []⟩],
      Entry.WellFormed e := by
    simp only [List.forall_mem_cons, List.not_mem_nil, false_implies, implies_true, and_true]
    exact ⟨⟨by decide, by decide, by simp only []; decide⟩,
      ⟨by decide, by decide, by simp only []; decide⟩⟩
  obtain ⟨hlist, hsame⟩ := tokenize_spaced hentries ""
  refine ⟨hentries, hlist.trans (by decide +kernel), hsame.2 ?_⟩
  simp [Entry.Tight]

/-- A blank after a comma becomes part of the quoted text that follows. -/
theorem tokenize_blank_before_quote :
    tokenize "['a', 'b']" = [.list [.quoted "a", .quoted " b"]] ∧
      tokenize "['a', 'b']" ≠ tokenize "['a','b']" ∧
      compile .sqlite "id,in,['a', 'b']" = .ok "id IN ('a',' b')" := by
  refine ⟨?_, ?_, ?_⟩ <;> decide +kernel

end TableApi.Filter
