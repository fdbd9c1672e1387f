import TableApi.Filter.Render
import TableApi.Proofs.Filter.Sound
import TableApi.Proofs.Sql.Fragment

/-!
# Compiled filters are fragments

Whatever text a filter is compiled from, the SQL that comes out belongs to the grammar of fragments:
`fragment_compileAs` for both modes, and `fragment_equality` for the condition on keys. The way
there follows the data:

* the words and quoted texts of tokens (`Words`) become operands, fields and arguments that are
  fragments or will be quoted;
* the parser keeps that (`wellFormed`, an invariant of the grammar);
* rendering joins fragments by separators, and puts groups and lists in parentheses.
-/

namespace TableApi.Filter

open Sql

variable {d : Dialect}

/-! ## Words and literals -/

/-- A text of harmless signs without parentheses is a fragment if it has no two hyphens in a row. -/
theorem fragment_of_wordChars {s : List Char} (hs : ∀ c ∈ s, isWordChar c = true)
    (hh : ¬['-', '-'] <:+: s) : Fragment d s := by
  have hsigns : ∀ x ∈ '(' :: ')' :: harmfulSigns, isWordChar x = false := by decide
  exact .word (fun c hc hmem => not_mem_of_wordChars hs (hsigns c hmem) hc) hh

theorem fragment_of_bare {w : String} (h : (Atom.bare w).Valid) : Fragment d w.toList :=
  fragment_of_wordChars h.2.1 h.2.2

/-- The opening quote of a text is the same in every dialect. -/
@[simp] theorem quote?_single (d : Dialect) : d.quote? '\'' = some .single := by
  cases d <;> rfl

/-- **A text between quotes is a quoted text.** -/
theorem isQuoted_literal (d : Dialect) (s : String) : IsQuoted d (literal d s).toList := by
  have hbody : Closes d .single (literalText d.valueQuote s.toList ++ [Quote.single.close]) := by
    refine closes_append_close d .single fun c hc => ?_
    have hkept := (List.mem_filter.1 hc).2
    simp only [Bool.and_eq_true, bne_iff_ne, ne_eq] at hkept
    exact ⟨hkept.1.2, hkept.2⟩
  rw [literal, String.toList_ofList]
  exact isQuoted_cons (quote?_single d) hbody

/-- A pattern may stand before what closes its quote. -/
theorem closes_patternText {q : List Char} (hq : Closes d .single q) (s : List Char) :
    Closes d .single (patternText s ++ q) := by
  fun_induction patternText s with
  | case1 => exact hq
  | case2 c rest hc ih => exact ih
  | case3 c rest hc hwild ih =>
    refine ih.cons_backslash (by decide) ?_ ?_
    · rcases hwild with rfl | rfl <;> decide
    · rcases hwild with rfl | rfl <;> decide
  | case4 c rest hc hwild ih =>
    have hc' : c ≠ '\'' ∧ c ≠ '\\' := not_or.1 hc
    exact ih.cons hc'.1 fun _ => hc'.2

/-- A wildcard or nothing may stand before what closes a quote. -/
theorem closes_wildcard {q : List Char} (hq : Closes d .single q) (on : Bool) :
    Closes d .single ((if on then ['%'] else []) ++ q) := by
  cases on with
  | false => exact hq
  | true => exact hq.cons (by decide) fun _ => by decide

/-- **A pattern is a quoted text.** -/
theorem isQuoted_patternLiteral (d : Dialect) (before after : Bool) (s : String) :
    IsQuoted d (patternLiteral d before after s).toList := by
  have hend : Closes d .single [d.valueQuote] := closes_close d .single
  have hbody := closes_wildcard (closes_patternText (closes_wildcard hend after) s.toList) before
  rw [patternLiteral, String.toList_ofList]
  refine isQuoted_cons (quote?_single d) ?_
  simpa only [List.append_assoc] using hbody

/-- A quoted argument of a call is a quoted text. -/
theorem isQuoted_quotedArg {s : String} (hs : '\'' ∉ s.toList) :
    IsQuoted d (quotedArg s).toList := by
  have hbody : Closes d .single (s.toList.filter (· ≠ '\\') ++ [Quote.single.close]) := by
    refine closes_append_close d .single fun c hc => ?_
    obtain ⟨hmem, hkept⟩ := List.mem_filter.1 hc
    refine ⟨?_, by simpa using hkept⟩
    rintro rfl
    exact hs hmem
  have htext : (quotedArg s).toList =
      '\'' :: (s.toList.filter (· ≠ '\\') ++ [Quote.single.close]) := by
    simp [quotedArg, Quote.close]
  rw [htext]
  exact isQuoted_cons (quote?_single d) hbody

/-- What follows a pattern is nothing, or the escape character after a separator. -/
theorem fragment_likeEscape {s : List Char} (hs : IsQuoted d s) :
    Fragment d (s ++ d.likeEscape.toList) := by
  have hescape : d ≠ .mysql → IsQuoted d "'\\'".toList := by
    intro hd
    cases d with
    | mysql => exact absurd rfl hd
    | postgres => rfl
    | mssql => rfl
    | sqlite => rfl
    | oracle => rfl
  have hsep : Firm " ESCAPE ".toList := by decide
  have hjoin : d ≠ .mysql → Fragment d (s ++ (" ESCAPE ".toList ++ "'\\'".toList)) := fun hd =>
    .join (.quoted hs) hsep (by decide) (.quoted (hescape hd))
  cases d with
  | postgres => simpa [Dialect.likeEscape] using Fragment.quoted hs
  | mysql => simpa [Dialect.likeEscape] using Fragment.quoted hs
  | mssql => exact hjoin (by simp)
  | sqlite => exact hjoin (by simp)
  | oracle => exact hjoin (by simp)

/-! ## Operands and expressions -/

/-- **An operand that can be written**: what stands bare is a fragment. -/
def Operand.Valid (d : Dialect) : Operand → Prop
  | .number s | .column s | .word s => Fragment d s.toList
  | .text _ => True

/-- **An expression that can be written.** -/
inductive Expr.Valid (d : Dialect) : Expr → Prop
  | compare {c : Comparison} (field : Fragment d c.field.toList)
      (operands : ∀ o ∈ c.operands, o.Valid d) : Expr.Valid d (.compare c)
  | group {clauses : List (Option Joiner × Expr)} (h : ∀ c ∈ clauses, Expr.Valid d c.2) :
      Expr.Valid d (.group clauses)
  | raw {operands : List Operand} (h : ∀ o ∈ operands, o.Valid d) : Expr.Valid d (.raw operands)

theorem Operand.Valid.value {o : Operand} (h : o.Valid d) (mode : Mode) :
    Fragment d (o.value d mode).toList := by
  cases o with
  | number s => exact h
  | column s => exact h
  | word s =>
    cases mode with
    | values => exact .quoted (isQuoted_literal d s)
    | identifiers => exact h
  | text s => exact .quoted (isQuoted_literal d s)

theorem Operand.Valid.rawText {o : Operand} (h : o.Valid d) (mode : Mode) :
    Fragment d (o.rawText d mode).toList := by
  cases o with
  | number s => exact h
  | column s => exact h
  | word s => exact h
  | text s => exact .quoted (isQuoted_literal d s)

/-! ## Rendering -/

/-- Two strings with a separator between them. -/
theorem fragment_join {a sep b : String} (ha : Fragment d a.toList) (firm : Firm sep.toList)
    (parens : '(' ∉ sep.toList ∧ ')' ∉ sep.toList) (hb : Fragment d b.toList) :
    Fragment d (a ++ sep ++ b).toList := by
  rw [String.toList_append, String.toList_append, List.append_assoc]
  exact ha.join firm parens hb

/-- The symbol of an order or an equality separates. -/
theorem firm_symbol {op : Opcode} {s : String} (h : op.form = .symbol s) :
    Firm (" " ++ s ++ " ").toList ∧ '(' ∉ (" " ++ s ++ " ").toList ∧
      ')' ∉ (" " ++ s ++ " ").toList := by
  cases op <;> simp only [Opcode.form, Form.symbol.injEq, reduceCtorEq] at h <;> subst h <;> decide

/-- The words of a form separate, negated or not. -/
theorem firm_words (negated : Bool) (word : String) (h : word ∈ ["BETWEEN ", "IN ", "LIKE "]) :
    Firm (" " ++ notText negated ++ word).toList ∧
      '(' ∉ (" " ++ notText negated ++ word).toList ∧
      ')' ∉ (" " ++ notText negated ++ word).toList := by
  simp only [List.mem_cons, List.not_mem_nil, or_false] at h
  rcases h with rfl | rfl | rfl <;> cases negated <;> decide

theorem firm_and : Firm " AND ".toList ∧ '(' ∉ " AND ".toList ∧ ')' ∉ " AND ".toList := by
  decide

theorem firm_is : Firm " IS ".toList ∧ '(' ∉ " IS ".toList ∧ ')' ∉ " IS ".toList := by
  decide

/-- **A comparison in SQL is a fragment**, in whichever form it is written. -/
theorem fragment_comparison (mode : Mode) {c : Comparison} (hfield : Fragment d c.field.toList)
    (hoperands : ∀ o ∈ c.operands, o.Valid d) : Fragment d (c.render d mode).toList := by
  rw [Comparison.render]
  split
  · next s o rest hform hops =>
    have hvalue := (hoperands o (hops ▸ List.mem_cons_self ..)).value mode
    obtain ⟨firm, parens⟩ := firm_symbol hform
    have h := fragment_join hfield firm parens hvalue
    simpa only [String.append_assoc] using h
  · next negated low high hform hops =>
    have hlow := (hoperands low (by simp [hops])).value mode
    have hhigh := (hoperands high (by simp [hops])).value mode
    obtain ⟨firm, parens⟩ := firm_words negated "BETWEEN " (by simp)
    have hrange := fragment_join hlow firm_and.1 firm_and.2 hhigh
    have h := fragment_join hfield firm parens hrange
    simpa only [String.append_assoc] using h
  · next negated hform =>
    obtain ⟨firm, parens⟩ := firm_words negated "IN " (by simp)
    have hvalues : Fragment d (",".intercalate (c.operands.map (Operand.value d mode))).toList := by
      refine Fragment.intercalate (by decide) (by decide) fun p hp => ?_
      obtain ⟨o, ho, rfl⟩ := List.mem_map.1 hp
      exact (hoperands o ho).value mode
    have h := (hfield.join firm parens .nil).call hvalues
    simpa using h
  · next negated hform =>
    have hnull : Fragment d (notText negated ++ "NULL").toList := by
      cases negated <;> exact .firm (by decide) (by decide)
    have h := fragment_join hfield firm_is.1 firm_is.2 hnull
    simpa only [String.append_assoc] using h
  · next negated before after o rest hform hops =>
    obtain ⟨firm, parens⟩ := firm_words negated "LIKE " (by simp)
    have hpattern := fragment_likeEscape (isQuoted_patternLiteral d before after o.raw)
    rw [← String.toList_append] at hpattern
    have h := fragment_join hfield firm parens hpattern
    simpa only [String.append_assoc] using h
  all_goals exact Fragment.nil

theorem fragment_clauseWords {mode : Mode} {clauses : List Clause}
    (h : ∀ c ∈ clauses, Fragment d (c.2.render d mode).toList) :
    ∀ w ∈ clauseWords d mode clauses, Fragment d w.toList := by
  induction clauses with
  | nil => simp [clauseWords]
  | cons c clauses ih =>
    obtain ⟨joiner, e⟩ := c
    obtain ⟨he, hrest⟩ := List.forall_mem_cons.1 h
    intro w hw
    rw [clauseWords, List.mem_append, List.mem_append] at hw
    rcases hw with (hjoiner | hword) | hlater
    · obtain ⟨j, -, rfl⟩ := List.mem_map.1 hjoiner
      cases j <;> exact .firm (by decide) (by decide)
    · by_cases hempty : (e.render d mode).isEmpty
      · simp [hempty] at hword
      · obtain rfl : w = e.render d mode := by simpa [hempty] using hword
        exact he
    · exact ih hrest w hlater

/-- **An expression in SQL is a fragment.** -/
theorem Expr.Valid.render {e : Expr} (h : e.Valid d) (mode : Mode) :
    Fragment d (e.render d mode).toList := by
  induction h with
  | compare field operands =>
    rw [Expr.render]
    exact fragment_comparison mode field operands
  | group _ ih =>
    rw [Expr.render, String.toList_append, String.toList_append]
    exact .group (.intercalate (by decide) (by decide) (fragment_clauseWords ih))
  | raw h =>
    rw [Expr.render]
    refine Fragment.intercalate (by decide) (by decide) fun p hp => ?_
    obtain ⟨o, ho, rfl⟩ := List.mem_map.1 hp
    exact (h o ho).rawText mode

/-- **A clause list in SQL is a fragment.** -/
theorem fragment_render (mode : Mode) {clauses : List Clause} (h : ∀ c ∈ clauses, c.2.Valid d) :
    Fragment d (render d mode clauses).toList :=
  Fragment.intercalate (by decide) (by decide)
    (fragment_clauseWords fun c hc => (h c hc).render mode)

/-! ## What the parser keeps -/

theorem fragment_callText {name : String} {args : List String} (hname : Fragment d name.toList)
    (hargs : ∀ a ∈ args, Fragment d a.toList) : Fragment d (callText name args).toList := by
  have hinner : Fragment d (", ".intercalate args.reverse).toList :=
    Fragment.intercalate (by decide) (by decide) fun a ha => hargs a (List.mem_reverse.1 ha)
  simpa [callText] using hname.call hinner

/-- **An item that can be written.** -/
def Item.Valid (d : Dialect) : Item → Prop
  | .word s | .call s => Fragment d s.toList
  | .quoted _ => True
  | .list members => ∀ a ∈ members, a.Valid

/-- Items are sound whose bare texts are fragments. -/
theorem Item.Valid.sound {i : Item} (h : i.Valid d) : i.Sound fun s => Fragment d s.toList := by
  cases i with
  | word s | call s => exact h
  | quoted s => trivial
  | list members =>
    intro w hw
    obtain ⟨a, ha, hword⟩ := List.mem_filterMap.1 hw
    cases a with
    | bare w' =>
      obtain rfl := Option.some.inj hword
      exact fragment_of_bare (h _ ha)
    | quoted s => simp [Atom.word?] at hword

/-- Operands and expressions whose bare texts are fragments can be written. -/
theorem Operand.Sound.valid {o : Operand} (h : o.Sound fun s => Fragment d s.toList) :
    o.Valid d := by
  cases o <;> exact h

theorem Expr.Sound.valid {e : Expr} (h : e.Sound fun s => Fragment d s.toList) : e.Valid d := by
  induction h with
  | compare _ field operands => exact .compare field fun o ho => (operands o ho).valid
  | group _ ih => exact .group ih
  | raw h => exact .raw fun o ho => (h o ho).valid

/-- What a clause means can be written if its items can. -/
theorem valid_interpret {items : List Item} {e : Expr} (hitems : ∀ i ∈ items, i.Valid d)
    (h : interpret items = .ok e) : e.Valid d :=
  (sound_interpret (fun i hi => (hitems i hi).sound) h).valid

/-- **What can be written is kept by the grammar.** -/
def wellFormed (d : Dialect) : Invariant where
  token := Token.Valid
  item := Item.Valid d
  arg a := Fragment d a.toList
  expr := Expr.Valid d
  item_of_token := by
    intro t i ht hi
    cases t with
    | atom a =>
      cases a with
      | bare w =>
        obtain rfl := Option.some.inj hi
        exact fragment_of_bare ht
      | quoted s =>
        obtain rfl := Option.some.inj hi
        trivial
    | list members =>
      obtain rfl := Option.some.inj hi
      exact ht
    | openParen => simp [Token.item?] at hi
    | closeParen => simp [Token.item?] at hi
  arg_of_bare := fragment_of_bare
  arg_of_quoted := fun h => .quoted (isQuoted_quotedArg h)
  arg_of_group := fragment_callText .nil
  arg_of_call := fragment_callText
  item_of_call := fragment_callText
  expr_of_items := valid_interpret
  expr_of_group := .group

/-! ## Whole filters -/

/-- **A compiled filter is a fragment**, in both modes and whatever its text. -/
theorem fragment_compileAs {mode : Mode} {text sql : String}
    (h : compileAs mode d text = .ok sql) : Fragment d sql.toList := by
  obtain ⟨clauses, hclauses, h⟩ := bind_eq_ok.1 h
  obtain ⟨-, -, hparse⟩ := bind_eq_ok.1 hclauses
  obtain rfl := Except.ok.inj h
  have htokens : ∀ t ∈ tokenize text, t.Valid := fun t ht => valid_of_mem_tokenize ht
  exact fragment_render mode ((wellFormed d).parse htokens hparse)

/-! ## Keys -/

/-- Signs that no decimal digit is. -/
def nonDigits : List Char := '-' :: '(' :: ')' :: harmfulSigns

theorem digits_avoid {s : List Char} (h : isDecimalDigits s = true) : ∀ c ∈ s, c ∉ nonDigits := by
  have hsigns : ∀ x ∈ nonDigits, Text.isDecimalDigit x = false := by decide
  intro c hc hmem
  have hdigit := List.all_eq_true.1 (Bool.and_eq_true_iff.1 h).2 c hc
  rw [hsigns c hmem] at hdigit
  exact absurd hdigit (by decide)

/-- A number has none of them after its minus. -/
theorem number_avoids {s : List Char} (h : isNumber s = true) :
    ∀ c ∈ (if s.head? = some '-' then s.drop 1 else s), c ∉ nonDigits := by
  dsimp only [isNumber] at h
  generalize (if s.head? = some '-' then s.drop 1 else s) = unsigned at h ⊢
  split at h
  · next whole fraction hcut =>
    obtain ⟨hwhole, hfraction⟩ := Bool.and_eq_true_iff.1 h
    rw [(Text.cutAt_eq_some hcut).1, List.forall_mem_append, List.forall_mem_cons]
    exact ⟨digits_avoid hwhole, by decide, digits_avoid hfraction⟩
  · exact digits_avoid h

/-- A number is a fragment: its only hyphen is its first character. -/
theorem fragment_number {s : List Char} (h : isNumber s = true) : Fragment d s := by
  have hrest := number_avoids h
  split at hrest
  · next hhead =>
    obtain ⟨rest, rfl⟩ : ∃ rest, s = '-' :: rest := List.head?_eq_some_iff.1 hhead
    refine .word (List.forall_mem_cons.2 ⟨by decide, fun c hc hmem => ?_⟩) fun hin => ?_
    · exact hrest c hc (List.mem_cons_of_mem _ hmem)
    · have hsub : List.Sublist ['-'] rest := List.cons_sublist_cons.1 hin.sublist
      exact hrest '-' (hsub.subset (List.mem_cons_self ..)) (List.mem_cons_self ..)
  · refine .word (fun c hc hmem => ?_) fun hin => ?_
    · exact hrest c hc (List.mem_cons_of_mem _ hmem)
    · exact hrest '-' (hin.subset (List.mem_cons_self ..)) (List.mem_cons_self ..)

@[simp] theorem valid_keyOperand (value : String) : (keyOperand value).Valid d := by
  rw [keyOperand]
  split
  · next h => exact fragment_number h
  · trivial

/-- **The condition on keys is a fragment**, whatever the names and the values. -/
theorem fragment_equality {table column : String} {values : List String} {sql : String}
    (h : equality d table column values = .ok sql) : Fragment d sql.toList := by
  have hname : ∀ s, Fragment d (d.quoteIdent s).toList := fun s => .quoted (isQuoted_quoteIdent d s)
  have hfield : Fragment d (d.quoteIdent table ++ "." ++ d.quoteIdent column).toList :=
    fragment_join (hname table) (by decide) (by decide) (hname column)
  have hrender : ∀ op, Fragment d (render d .values [(none, .compare
      ⟨d.quoteIdent table ++ "." ++ d.quoteIdent column, op, values.map keyOperand⟩)]).toList := by
    intro op
    refine fragment_render .values (List.forall_mem_singleton.2 (.compare hfield ?_))
    intro o ho
    obtain ⟨value, -, rfl⟩ := List.mem_map.1 ho
    exact valid_keyOperand value
  obtain ⟨-, -, h⟩ := bind_eq_ok.1 h
  dsimp only at h
  split at h
  · simp at h
  · obtain rfl := Except.ok.inj h
    exact hrender .eq
  · obtain rfl := Except.ok.inj h
    exact hrender .in_

@[simp] theorem render_compare (mode : Mode) (c : Comparison) :
    render d mode [(none, .compare c)] = c.render d mode := by
  by_cases h : (c.render d mode).isEmpty
  · have hempty : c.render d mode = "" := by simpa using h
    simp [render, clauseWords, Expr.render, hempty, String.intercalate]
  · simp only [render, clauseWords, Expr.render, h]
    rfl

theorem equality_ne_empty {table column : String} {values : List String} {sql : String}
    (h : equality d table column values = .ok sql) : sql ≠ "" := by
  obtain ⟨-, -, h⟩ := bind_eq_ok.1 h
  dsimp only at h
  split at h
  · simp at h
  · next key hkey =>
    obtain rfl := Except.ok.inj h
    rw [render_compare]
    simp [Comparison.render, Opcode.form, hkey]
  · obtain rfl := Except.ok.inj h
    rw [render_compare]
    simp [Comparison.render, Opcode.form]

end TableApi.Filter
