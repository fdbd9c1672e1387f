import TableApi.Proofs.Command.Inserts
import TableApi.Proofs.View.Batches

/-!
# Inserts in batches

Rows are inserted a chunk at a time, and a chunk in the batches that can share an insert. The groups
of rows that come of it are the rows in their order, cut up (`flatten_insertGroups`); none is empty
or longer than a chunk. If all goes well, the statements that were sent are the inserts of the
groups, one for each (`insertRows_in_batches`).
-/

namespace TableApi.Command

variable {c : Config} {v : View} {rows group : List Row}

/-- A group is a batch of one of the chunks. -/
theorem exists_chunk_of_mem_insertGroups (h : group ∈ insertGroups c v rows) :
    ∃ run ∈ chunks c.chunkSize c.one_le_chunkSize rows, group ∈ v.insertBatches c.dialect run :=
  List.mem_flatMap.1 h

/-- No group is empty, and none is longer than a chunk. -/
theorem length_of_mem_insertGroups (h : group ∈ insertGroups c v rows) :
    group ≠ [] ∧ group.length ≤ c.chunkSize := by
  obtain ⟨run, hrun, hgroup⟩ := exists_chunk_of_mem_insertGroups h
  exact ⟨View.ne_nil_of_mem_insertBatches hgroup,
    (View.length_le_of_mem_insertBatches hgroup).trans (length_le_of_mem_chunks hrun)⟩

/-- **An agenda of inserts without a check** has the insert of each group. -/
theorem exists_inserts_of_agenda {d : Dialect} {groups : List (List Row)} {done : List Event}
    (h : groups.map (fun group => (v.insert d group).map (insertEvent d v)) = done.map .ok) :
    ∃ inserts, List.Forall₂ (fun group q => v.insert d group = .ok q) groups inserts ∧
      done = inserts.map (insertEvent d v) := by
  induction groups generalizing done with
  | nil => exact ⟨[], .nil, List.map_eq_nil_iff.1 h.symm⟩
  | cons group groups ih =>
    obtain ⟨e, rest, rfl, he, hrest⟩ := List.map_eq_cons_iff.1 h.symm
    obtain ⟨q, hq, rfl⟩ := map_eq_ok.1 he.symm
    obtain ⟨inserts, hinserts, rfl⟩ := ih hrest.symm
    exact ⟨q :: inserts, .cons hq hinserts, rfl⟩

/-- **Rows are inserted in batches.** If inserting rows succeeds, for a view, a configuration and a
script of replies, then the rows were cut up in their order, into groups that are not empty and no
longer than a chunk, and one statement was sent for each group: the insert of its rows, under the
columns of the table that they have values for. Where no keyword stands for a default, as in SQLite,
each of the rows has all of these columns, so that the cells are placeholders for its values. -/
theorem insertRows_in_batches {script : List Reply} {log : List Event} {turns : List Turn}
    {keys : List Json} {s : Session}
    (h : (insertRows c v rows).on ⟨script, log, true, turns⟩ = (.ok keys, s)) :
    ∃ (groups : List (List Row)) (inserts : List Statement),
      groups.flatten = rows ∧ s.log = log ++ inserts.map (insertEvent c.dialect v) ∧
        List.Forall₂ (fun group q => group ≠ [] ∧ group.length ≤ c.chunkSize ∧
          ∃ columns table, v.Inserts c.dialect group columns table q ∧
            (c.dialect = .sqlite → ∀ texts ∈ table, ∀ text ∈ texts, text = "?"))
        groups inserts := by
  obtain ⟨done, hagenda, rfl⟩ := (followsOn_insertRows c v rows rfl).sent_of_ok h
  obtain ⟨inserts, hinserts, rfl⟩ := exists_inserts_of_agenda hagenda
  refine ⟨insertGroups c v rows, inserts, flatten_insertGroups c v rows, rfl, ?_⟩
  have hgroups := (List.forall₂_and_left _ _).2 ⟨fun group hgroup => hgroup, hinserts⟩
  refine hgroups.imp fun group q ⟨hgroup, hq⟩ => ?_
  obtain ⟨hne, hlength⟩ := length_of_mem_insertGroups hgroup
  obtain ⟨run, -, hbatch⟩ := exists_chunk_of_mem_insertGroups hgroup
  obtain ⟨columns, table, hq⟩ := View.inserts_of_mem_insertBatches hbatch hq
  refine ⟨hne, hlength, columns, table, hq, fun hd => ?_⟩
  rw [hd] at hq
  exact hq.cells_sqlite

/-- Four rows in chunks of three, the third one with a colour: three inserts. -/
theorem insertRows_in_batches_gadgets :
    let column (name : String) : Column := { name, dataType := "text" }
    let gadgets : Table :=
      { name := "gadgets", primaryKey := some "id", columns := ["id", "name", "color"].map column }
    let v : View := { database := "d", schema := gadgets, role := .primary }
    let c : Config := ⟨.sqlite, 3, by decide⟩
    let rows : List Row := [[("name", .string "a")], [("name", .string "b")],
      [("name", .string "c"), ("color", .string "blue")], [("name", .string "d")]]
    let run := (insertRows c v rows).on ⟨[], [], true, []⟩
    ∃ (groups : List (List Row)) (inserts : List Statement),
      groups.flatten = rows ∧ run.2.log = inserts.map (.fetch true) ∧ inserts.length = 3 ∧
        List.Forall₂ (fun group q => group ≠ [] ∧ group.length ≤ 3 ∧
          ∃ columns table, v.Inserts .sqlite group columns table q ∧
            (Dialect.sqlite = .sqlite → ∀ texts ∈ table, ∀ text ∈ texts, text = "?"))
              groups inserts := by
  intro column gadgets v c rows run
  have hok : run.1.isOk = true := by decide +kernel
  have hlength : run.2.log.length = 3 := by decide +kernel
  obtain ⟨keys, hkeys⟩ := exists_of_isOk hok
  have hrun : (insertRows c v rows).on ⟨[], [], true, []⟩ = (.ok keys, run.2) := Prod.ext hkeys rfl
  obtain ⟨groups, inserts, hrows, hlog, hgroups⟩ := insertRows_in_batches hrun
  refine ⟨groups, inserts, hrows, hlog, ?_, hgroups⟩
  rw [hlog] at hlength
  simpa using hlength

end TableApi.Command
