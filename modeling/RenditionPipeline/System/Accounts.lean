import RenditionPipeline.System.Passes

/-!
# The accounts of a publishing pass

A publishing pass tells how many messages it has sent, and writes into each row of its
batch what has become of the message: published, or one more attempt with its error.
Errors are handled at two levels – around each publish call, and around the session as
a whole – and the outer handler treats every row of the batch alike, whatever the inner
one has made of it. As long as the session is not closed with an error the two levels
agree, and they disagree on every batch whose session is
(`RenditionPipeline.batch_accounted`).
-/

namespace RenditionPipeline

namespace PublisherSession

/-- What a pass makes of a row. -/
def rowAfter (session : PublisherSession) (p : UUID × OutboxMessage) : OutboxMessage :=
  match session.openError with
  | some error => failedMessage error p.2
  | none =>
    match session.closeError with
    | some error => failedMessage error (afterPublish (session.publish p.1) p.2)
    | none => afterPublish (session.publish p.1) p.2

/-- The publish call of a message has been made and has returned. -/
def Sends (session : PublisherSession) (messageId : UUID) : Prop :=
  session.openError = none ∧ (session.publish messageId).isOk = true

end PublisherSession

section Accounts

variable {db : Db} {session : PublisherSession} {now : Timestamp} {choice : OutboxChoice}
  {locked : UUID → Bool}

theorem publishRows_rows (session : PublisherSession) (rows : List (UUID × OutboxMessage)) :
    (publishRows session rows).1 = rows.map fun p => (p.1, session.rowAfter p) := by
  unfold publishRows PublisherSession.rowAfter
  cases session.openError with
  | some error => rfl
  | none =>
    cases session.closeError with
    | some error => exact List.map_map
    | none => rfl

/-- **A row of the batch is committed** as the pass has left it. -/
theorem get?_publish_of_mem {p : UUID × OutboxMessage}
    (hp : p ∈ publishableMessages db now choice locked) :
    (publishPendingOutboxMessages db session now choice locked).1.outboxMessages.get? p.1 =
      some (session.rowAfter p) := by
  rw [publishPendingOutboxMessages, if_neg (List.ne_nil_of_mem hp), publishRows_rows]
  refine get?_setOutboxRows_of_mem ?_ (List.mem_map.mpr ⟨p, hp, rfl⟩)
    (mem_publishableMessages hp).1
  rw [List.map_map]
  exact nodup_publishableMessages db now choice locked

/-- A row that is not of the batch stays. -/
theorem get?_publish_of_not_mem {messageId : UUID}
    (h : messageId ∉ (publishableMessages db now choice locked).map Prod.fst) :
    (publishPendingOutboxMessages db session now choice locked).1.outboxMessages.get? messageId =
      db.outboxMessages.get? messageId := by
  unfold publishPendingOutboxMessages
  dsimp only
  split
  · rfl
  · rw [publishRows_rows]
    refine get?_setOutboxRows_of_not_mem ?_
    rwa [List.map_map]

/-- The rows that a pass has changed from pending to published. -/
def newlyPublished (db db' : Db) : List (UUID × OutboxMessage) :=
  db.outboxMessages.rows.filter fun p =>
    p.2.status = .pending && (db'.outboxMessages.get? p.1).any fun m => m.status = .published

/-- **The accounts of a pass are exact**: the count is that of the rows it has published,
which are those whose call has returned, without an error and with the attempts they
had; and each of the others has one attempt more and an error. -/
structure Accounted (db : Db) (session : PublisherSession) (now : Timestamp)
    (choice : OutboxChoice) (locked : UUID → Bool) : Prop where
  count : (publishPendingOutboxMessages db session now choice locked).2 =
    (newlyPublished db (publishPendingOutboxMessages db session now choice locked).1).length
  row : ∀ p ∈ publishableMessages db now choice locked, ∃ m,
    (publishPendingOutboxMessages db session now choice locked).1.outboxMessages.get? p.1 =
      some m ∧
    (m.status = .published ↔ session.Sends p.1) ∧
    (m.status = .published → m.lastError = none ∧ m.attemptCount = p.2.attemptCount) ∧
    (m.status = .pending → m.attemptCount = p.2.attemptCount + 1 ∧ m.lastError.isSome = true)

/-- A row of the batch is pending. -/
theorem status_of_mem_publishableMessages {p : UUID × OutboxMessage}
    (hp : p ∈ publishableMessages db now choice locked) : p.2.status = .pending := by
  have hcond := (mem_publishableMessages (m := p.2) hp).2.1
  rw [isPublishable, Bool.and_eq_true] at hcond
  exact of_decide_eq_true hcond.1

/-- **The rows that a pass has published** are those of the batch that it has left so. -/
theorem mem_newlyPublished {p : UUID × OutboxMessage} :
    p ∈ newlyPublished db (publishPendingOutboxMessages db session now choice locked).1 ↔
      p ∈ publishableMessages db now choice locked ∧ (session.rowAfter p).status = .published := by
  rw [newlyPublished, List.mem_filter, Bool.and_eq_true, decide_eq_true_iff]
  constructor
  · rintro ⟨hrow, hpending, hpublished⟩
    have hget := Table.get?_eq_some_iff.mpr (show (p.1, p.2) ∈ db.outboxMessages.rows from hrow)
    by_cases hmem : p.1 ∈ (publishableMessages db now choice locked).map Prod.fst
    · obtain ⟨q, hq, hqp⟩ := List.mem_map.mp hmem
      have hqget := (mem_publishableMessages (m := q.2) hq).1
      obtain rfl : q = p := by
        rw [hqp, hget, Option.some.injEq] at hqget
        exact Prod.ext hqp hqget.symm
      rw [get?_publish_of_mem hq] at hpublished
      exact ⟨hq, by simpa using hpublished⟩
    · rw [get?_publish_of_not_mem hmem, hget] at hpublished
      simp [hpending] at hpublished
  · rintro ⟨hp, hpublished⟩
    refine ⟨Table.get?_eq_some_iff.mp (mem_publishableMessages (m := p.2) hp).1,
      status_of_mem_publishableMessages hp, ?_⟩
    rw [get?_publish_of_mem hp]
    simpa using hpublished

theorem length_newlyPublished :
    (newlyPublished db (publishPendingOutboxMessages db session now choice locked).1).length =
      ((publishableMessages db now choice locked).filter fun p =>
        (session.rowAfter p).status = .published).length := by
  refine List.Perm.length_eq ((List.perm_ext_iff_of_nodup ?_ ?_).mpr fun p => ?_)
  · exact (List.Nodup.of_map Prod.fst db.outboxMessages.nodup_keys).filter _
  · exact (List.Nodup.of_map Prod.fst
      (nodup_publishableMessages db now choice locked)).filter _
  · rw [mem_newlyPublished, List.mem_filter, decide_eq_true_iff]

/-! ### When the accounts are exact -/

/-- A session that does not open publishes nothing. -/
theorem rowAfter_of_openError {error : String} (h : session.openError = some error)
    (p : UUID × OutboxMessage) : session.rowAfter p = failedMessage error p.2 := by
  rw [PublisherSession.rowAfter, h]

/-- A session without an error of its own leaves each row to its publish call. -/
theorem rowAfter_of_no_error (hopen : session.openError = none)
    (hclose : session.closeError = none) (p : UUID × OutboxMessage) :
    session.rowAfter p = afterPublish (session.publish p.1) p.2 := by
  rw [PublisherSession.rowAfter, hopen, hclose]

/-- An error on closing counts as one more attempt of every row. -/
theorem rowAfter_of_closeError {error : String} (hopen : session.openError = none)
    (hclose : session.closeError = some error) (p : UUID × OutboxMessage) :
    session.rowAfter p = failedMessage error (afterPublish (session.publish p.1) p.2) := by
  rw [PublisherSession.rowAfter, hopen, hclose]

theorem status_afterPublish {answer : Except String Timestamp} {message : OutboxMessage}
    (h : message.status = .pending) :
    (afterPublish answer message).status = .published ↔ answer.isOk = true := by
  cases answer <;> simp [afterPublish, failedMessage, publishedMessage, h, Except.isOk,
    Except.toBool]

/-- **The accounts of a pass are exact just when** its batch is empty, its session does
not open, or its session is closed without an error. -/
theorem batch_accounted (db : Db) (session : PublisherSession) (now : Timestamp)
    (choice : OutboxChoice) (locked : UUID → Bool) :
    Accounted db session now choice locked ↔
      publishableMessages db now choice locked = [] ∨ session.openError.isSome = true ∨
        session.closeError = none := by
  constructor
  · intro h
    by_contra hno
    obtain ⟨hne, hopen, hclose⟩ : publishableMessages db now choice locked ≠ [] ∧
        session.openError = none ∧ session.closeError ≠ none := by simpa using hno
    obtain ⟨error, hclose⟩ := Option.ne_none_iff_exists'.mp hclose
    obtain ⟨p, hp⟩ := List.exists_mem_of_ne_nil _ hne
    obtain ⟨m, hm, -, hpublished, hpending⟩ := h.row p hp
    rw [get?_publish_of_mem hp, rowAfter_of_closeError hopen hclose, Option.some.injEq] at hm
    subst hm
    -- a row that was sent has an error now, and one that was not has two attempts more
    cases hanswer : session.publish p.1 with
    | ok sentAt => simp [hanswer, afterPublish, publishedMessage, failedMessage] at hpublished
    | error e =>
      have hstatus := status_of_mem_publishableMessages hp
      simp [hanswer, afterPublish, failedMessage, hstatus] at hpending
  · intro h
    by_cases hnil : publishableMessages db now choice locked = []
    · refine ⟨?_, fun p hp => by rw [hnil] at hp; exact (List.not_mem_nil hp).elim⟩
      rw [length_newlyPublished, hnil, publishPendingOutboxMessages, if_pos hnil]
      rfl
    by_cases hopen : session.openError = none
    · have hclose : session.closeError = none := by simpa [hnil, hopen] using h
      refine ⟨?_, fun p hp => ⟨_, get?_publish_of_mem hp, ?_⟩⟩
      · rw [length_newlyPublished, publishPendingOutboxMessages, if_neg hnil, publishRows, hopen,
          hclose]
        refine congrArg List.length (List.filter_congr fun p hp => ?_)
        rw [rowAfter_of_no_error hopen hclose, Bool.eq_iff_iff, decide_eq_true_iff]
        exact (status_afterPublish (status_of_mem_publishableMessages hp)).symm
      · have hstatus := status_of_mem_publishableMessages hp
        rw [rowAfter_of_no_error hopen hclose]
        refine ⟨(status_afterPublish hstatus).trans ⟨fun h => ⟨hopen, h⟩, fun h => h.2⟩, ?_, ?_⟩
        all_goals
          cases session.publish p.1 <;>
            simp [afterPublish, failedMessage, publishedMessage, hstatus]
    · obtain ⟨error, hopen⟩ := Option.ne_none_iff_exists'.mp hopen
      refine ⟨?_, fun p hp => ⟨_, get?_publish_of_mem hp, ?_⟩⟩
      · rw [length_newlyPublished, publishPendingOutboxMessages, if_neg hnil, publishRows, hopen]
        refine (List.length_eq_zero_iff.mpr (List.filter_eq_nil_iff.mpr fun p hp => ?_)).symm
        simp [rowAfter_of_openError hopen, failedMessage, status_of_mem_publishableMessages hp]
      · rw [rowAfter_of_openError hopen]
        simp [failedMessage, status_of_mem_publishableMessages hp, PublisherSession.Sends, hopen]

end Accounts

/-- **A session that is closed with an error** leaves messages that have been sent with an
error on their rows, and counts none of them. -/
theorem closed_with_error : ¬Accounted (Run.start.exec sampleUpload).world.db
    ⟨none, fun _ => .ok 2, some "connection closed"⟩ 2 (.limit 6) fun _ => false := by
  intro h
  have hcount := h.count
  exact absurd hcount (by decide)

end RenditionPipeline
