import RenditionPipeline.System.State

/-!
# The commit of a publishing pass

A pass writes the columns of its rows that it has changed, and nothing else. What
that comes to for a row is `RenditionPipeline.Pass.get?_commit_of_mem`: a row
whose call has returned is published, whatever has been committed for it since,
and a row whose call has raised stays as pending as it is committed. The
references of every row stay (`RenditionPipeline.Pass.view_commit`).
-/

namespace RenditionPipeline

/-! ### Writing rows over a database -/

section SetOutboxRows

variable {rows : List (UUID × OutboxMessage)}

/-- Writing rows adds none. -/
theorem get?_setOutboxRows_eq_none_iff (db : Db) (k : UUID) :
    db.outboxMessages.get? k = none ↔ (db.setOutboxRows rows).outboxMessages.get? k = none := by
  rw [Db.setOutboxRows]
  generalize db.outboxMessages = t
  induction rows generalizing t with
  | nil => exact Iff.rfl
  | cons p rows ih =>
    refine Iff.trans ?_ (ih (t.modify p.1 fun _ => p.2))
    rw [Table.get?_modify]
    by_cases hk : k = p.1
    · rw [if_pos hk, Option.map_eq_none_iff]
    · rw [if_neg hk]

/-- A row that is not among those written stays. -/
theorem get?_setOutboxRows_of_not_mem {db : Db} {k : UUID} (h : k ∉ rows.map Prod.fst) :
    (db.setOutboxRows rows).outboxMessages.get? k = db.outboxMessages.get? k := by
  rw [Db.setOutboxRows]
  generalize db.outboxMessages = t
  induction rows generalizing t with
  | nil => rfl
  | cons p rows ih =>
    rw [List.map_cons, List.mem_cons, not_or] at h
    rw [List.foldl_cons, ih h.2, Table.get?_modify_of_ne h.1]

/-- A row that is written is there. -/
theorem get?_setOutboxRows_of_mem {db : Db} {k : UUID} {m m₀ : OutboxMessage}
    (hnodup : (rows.map Prod.fst).Nodup) (hmem : (k, m) ∈ rows)
    (hget : db.outboxMessages.get? k = some m₀) :
    (db.setOutboxRows rows).outboxMessages.get? k = some m := by
  rw [Db.setOutboxRows]
  generalize db.outboxMessages = t at hget
  induction rows generalizing t m₀ with
  | nil => cases hmem
  | cons p rows ih =>
    rw [List.map_cons, List.nodup_cons] at hnodup
    rw [List.foldl_cons]
    rcases List.mem_cons.mp hmem with rfl | hmem
    · have hrest : (Db.setOutboxRows { db with outboxMessages := t.modify k fun _ => m }
          rows).outboxMessages.get? k = (t.modify k fun _ => m).get? k :=
        get?_setOutboxRows_of_not_mem hnodup.1
      rw [Db.setOutboxRows] at hrest
      rw [hrest, Table.get?_modify_self, hget, Option.map_some]
    · have hne : k ≠ p.1 := fun he => hnodup.1 (by
        rw [← he]
        exact List.mem_map.mpr ⟨(k, m), hmem, rfl⟩)
      exact ih hnodup.2 hmem _ (by rw [Table.get?_modify_of_ne hne]; exact hget)

end SetOutboxRows

/-! ### The rows of a pass -/

theorem nodup_publishableMessages (db : Db) (now : Timestamp) (choice : OutboxChoice)
    (locked : UUID → Bool) :
    ((publishableMessages db now choice locked).map Prod.fst).Nodup := by
  have hnodup : (((db.outboxMessages.select fun id message =>
      isPublishable db now message && !locked id).insertionSort createdBefore).map
        Prod.fst).Nodup :=
    ((List.perm_insertionSort _ _).map Prod.fst).nodup_iff.mpr (Table.nodup_keys_select _ _)
  cases choice with
  | limit n => exact hnodup.sublist ((List.take_sublist _ _).map _)
  | ids l => exact hnodup.sublist (List.filter_sublist.map _)

/-- **The rows of a pass are those its session has loaded**, each once. -/
structure Pass.Loaded (pass : Pass) : Prop where
  get?_row : ∀ p ∈ pass.rows, pass.loaded.outboxMessages.get? p.1 = some p.2
  nodup : (pass.rows.map Prod.fst).Nodup

/-- What a pass makes of a row in memory. -/
def Pass.rowAfter (pass : Pass) (openError closeError : Option String)
    (p : UUID × OutboxMessage) : OutboxMessage :=
  match openError with
  | some error => failedMessage error p.2
  | none =>
    let sent := afterPublish ((pass.session openError closeError).publish p.1) p.2
    match closeError with
    | some error => failedMessage error sent
    | none => sent

theorem publishRows_eq (pass : Pass) (openError closeError : Option String) :
    (publishRows (pass.session openError closeError) pass.rows).1 =
      pass.rows.map fun p => (p.1, pass.rowAfter openError closeError p) := by
  unfold publishRows Pass.rowAfter
  cases openError with
  | some error => rfl
  | none =>
    cases closeError with
    | some error => exact List.map_map
    | none => rfl

namespace Pass

section Commit

variable {pass : Pass} (openError closeError : Option String) (db : Db)

/-- A pass commits outbox rows alone. -/
theorem commit_eq : pass.commit openError closeError db =
    { db with outboxMessages := (pass.commit openError closeError db).outboxMessages } := by
  unfold Pass.commit Db.setOutboxRows
  rw [Db.flush_outboxMessages]

/-- **The references of every message stay.** -/
theorem view_commit : (pass.commit openError closeError db).outboxMessages.view
      OutboxMessage.toEncodingJobMessage =
    db.outboxMessages.view OutboxMessage.toEncodingJobMessage := by
  exact Table.view_flush (fun _ _ _ _ _ _ _ => rfl) (get?_setOutboxRows_eq_none_iff pass.loaded)

/-- A row that the pass has not selected stays as it is committed. -/
theorem get?_commit_of_not_selects {mid : UUID} (h : pass.selects mid = false) :
    (pass.commit openError closeError db).outboxMessages.get? mid =
      db.outboxMessages.get? mid := by
  refine Table.get?_flush_of_eq OutboxMessage.flush_same (get?_setOutboxRows_of_not_mem ?_)
  rw [publishRows_eq, List.map_map]
  intro hmem
  obtain ⟨p, hp, rfl⟩ := List.mem_map.mp hmem
  rw [selects, List.any_eq_false] at h
  exact h p hp (by simp)

/-- **A selected row** ends with the columns that the pass has changed in memory. -/
theorem get?_commit_of_mem (hl : pass.Loaded) {p : UUID × OutboxMessage} (hp : p ∈ pass.rows)
    {m : OutboxMessage} (hget : db.outboxMessages.get? p.1 = some m) :
    (pass.commit openError closeError db).outboxMessages.get? p.1 =
      some (OutboxMessage.flush p.2 (pass.rowAfter openError closeError p) m) := by
  refine Table.get?_flush_of_some (hl.get?_row p hp) ?_ hget
  refine get?_setOutboxRows_of_mem ?_ ?_ (hl.get?_row p hp)
  · rw [publishRows_eq, List.map_map]
    exact hl.nodup
  · rw [publishRows_eq]
    exact List.mem_map.mpr ⟨p, hp, rfl⟩

/-- **A row that stays pending in memory** is as pending as it is committed. -/
theorem status_flush_rowAfter {p : UUID × OutboxMessage} {m : OutboxMessage}
    (hp : p.2.status = .pending)
    (h : (pass.rowAfter openError closeError p).status ≠ .published) :
    (OutboxMessage.flush p.2 (pass.rowAfter openError closeError p) m).status = m.status := by
  have hsame : (pass.rowAfter openError closeError p).status = p.2.status := by
    rw [hp]
    cases hs : (pass.rowAfter openError closeError p).status with
    | pending => rfl
    | published => exact absurd hs h
  show Table.flushColumn p.2.status (pass.rowAfter openError closeError p).status m.status =
    m.status
  rw [hsame, Table.flushColumn_same]

/-- **Only a row whose call has returned is published.** -/
theorem exists_answer_of_published (hl : pass.Loaded) {p : UUID × OutboxMessage}
    (hp : p ∈ pass.rows) (hpending : p.2.status = .pending)
    (h : (pass.rowAfter openError closeError p).status = .published) :
    ∃ (i : ℕ) (now : Timestamp), pass.rows[i]? = some p ∧ pass.answers[i]? = some (.ok now) := by
  obtain ⟨now, hanswer⟩ : ∃ now, (pass.session openError closeError).publish p.1 = .ok now := by
    cases hpub : (pass.session openError closeError).publish p.1 with
    | ok now => exact ⟨now, rfl⟩
    | error error =>
      exfalso
      cases openError <;> cases closeError <;>
        simp [rowAfter, hpub, afterPublish, failedMessage, hpending] at h
  -- the answer is found under the row's id, which is that of no other row
  have hlookup : ((pass.rows.map Prod.fst).zip pass.answers).lookup p.1 =
      some (.ok now : Except String Timestamp) := by
    simp only [session] at hanswer
    cases hl : ((pass.rows.map Prod.fst).zip pass.answers).lookup p.1 with
    | none =>
      rw [hl] at hanswer
      cases hanswer
    | some a =>
      rw [hl] at hanswer
      exact congrArg some hanswer
  have hmem : (p.1, (.ok now : Except String Timestamp)) ∈
      (pass.rows.map Prod.fst).zip pass.answers := by
    obtain ⟨l₁, l₂, hl, -⟩ := List.lookup_eq_some_iff.mp hlookup
    simp [hl]
  obtain ⟨i, hi⟩ := List.mem_iff_getElem?.mp hmem
  obtain ⟨hkey, hans⟩ := List.getElem?_zip_eq_some.mp hi
  obtain ⟨q, hq, hqp⟩ : ∃ q, pass.rows[i]? = some q ∧ q.1 = p.1 := by
    rw [List.getElem?_map] at hkey
    exact Option.map_eq_some_iff.mp hkey
  obtain rfl : q = p := List.inj_on_of_nodup_map hl.nodup (List.mem_of_getElem? hq) hp hqp
  exact ⟨i, now, hq, hans⟩

end Commit

end Pass

end RenditionPipeline
