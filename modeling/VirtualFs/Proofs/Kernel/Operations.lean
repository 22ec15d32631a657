import VirtualFs.Proofs.Kernel.MountEffects

/-!
# What a process's operation comes to

A process asks for one of six operations, and whatever carries an operation out (`Job.op?`) ends
with an answer of the kind that the operation gives, with a failure, or by suspending a call of its
own kind (`Progress.Fits`).  A descriptor number that is given out is always that of a slot, and no
table has more slots than a signed word of 32 bits can number (`Store.Bounded`).

* `fits_closeFile`, `fits_transfer`, `FileEffect.fits_open`: the operations one by one.
* `Sound.ensures_fits`: every job of an operation.
-/

namespace VirtualFs

/-- The operation of a process that an operation on an open file is. -/
def Transfer.op : Transfer → ProcessOp
  | .read _ => .read
  | .write _ => .write
  | .readdir => .readdir
  | .control _ _ => .control

/-- The operation that a call carries out. -/
def Call.op? : Call → Option ProcessOp
  | .open _ _ _ _ _ => some .open
  | .close _ _ => some .close
  | .transfer _ _ op => some op.op
  | _ => none

/-- The operation that a suspended call carries out. -/
def Frame.op? : Frame → Option ProcessOp
  | .opening _ _ _ _ _ | .abandoning _ _ => some .open
  | .closing _ _ _ => some .close
  | .transferring _ op => some op.op
  | _ => none

/-- The operation that a job is part of. -/
def Job.op? : Job → Option ProcessOp
  | .begin call => call.op?
  | .reject _ => none
  | .resume frame _ => frame.op?

/-- The answers that an operation can give. -/
def ProcessOp.Answers : ProcessOp → Answer → Prop
  | .open, .fd fd => fd ≤ Limits.maxCapacity
  | .close, .done => True
  | .read, .moved _ _ => True
  | .write, .moved _ data => data = []
  | .readdir, .listed _ => True
  | .control, .controlled _ => True
  | _, _ => False

/-- How far a call that carries out the operation can have come. -/
def Progress.Fits (op : ProcessOp) : Progress → Prop
  | .finished (.ok answer) => op.Answers answer
  | .finished (.error _) => True
  | .waiting _ frame _ => frame.op? = some op

/-! ### The operations -/

namespace Action

variable {α : Type} {s : Store}

/-- Whatever an action comes to. -/
theorem ensures_any (act : Action α) : act.Ensures s fun _ _ => True :=
  fun _ _ _ _ _ => trivial

theorem fits_closed (t : TableId) (fd : Nat) (entry : FdEntry) (failure : Option Error) :
    (closed t fd entry failure).Ensures s fun p _ => p.Fits .close := by
  refine (ensures_closed t fd entry failure).mono fun p s' h => ?_
  cases h <;> exact trivial

theorem fits_closeFile (t : TableId) (fd : Nat) :
    (closeFile t fd).Ensures s fun p _ => p.Fits .close := by
  refine (ensures_closing t fd).mono fun p s' h => ?_
  cases h with
  | asks => exact rfl
  | _ => exact trivial

theorem fits_transfer (t : TableId) (fd : Nat) (op : Transfer) :
    (transfer t fd op).Ensures s fun p _ => p.Fits op.op := by
  refine (ensures_any _).bind ?_
  rintro (e | entry) s₁ -
  · exact ensures_pure trivial
  dsimp only
  cases entry.descriptor.record.driver with
  | external driver => exact ensures_ask fun _ => rfl
  | directory v =>
      cases op with
      | readdir =>
          refine (ensures_any _).bind ?_
          rintro (e | next) s₂ - <;> exact ensures_pure trivial
      | _ => exact ensures_pure trivial

/-- A driver that has been asked gives an answer of the kind asked for. -/
theorem fits_transferred (t : TableId) (op : Transfer) (reply : Reply) :
    (resume (.transferring t op) reply).Ensures s fun p _ => p.Fits op.op := by
  have hproceed : (proceed (.transferring t op) reply).Ensures s fun p _ => p.Fits op.op := by
    rw [proceed]
    cases hanswer : op.answer? reply with
    | none => exact ensures_throw _
    | some answer =>
        refine ensures_pure ?_
        cases op <;> cases reply <;> cases hanswer <;> trivial
  cases reply with
  | failed e => exact ensures_pure trivial
  | _ => exact hproceed

theorem fits_abandoned (t : TableId) (path : Path) (reply : Reply) :
    (resume (.abandoning t path) reply).Ensures s fun p _ => p.Fits .open := by
  have h : ∀ failure, (abandoned path failure).Ensures s fun p _ => p.Fits .open := by
    intro failure
    refine (ensures_abandoned path failure).mono ?_
    rintro p s' ⟨rfl, -⟩
    exact trivial
  cases reply with
  | failed e => exact h (some e)
  | _ => exact h none

end Action

/-- **Opening a file** gives the number of a slot, which is small. -/
theorem FileEffect.fits_open {s s' : Store} {job : Job} {p : Progress}
    (h : FileEffect s job p s') {opening : TableId × OpenFlags × UInt32}
    (hopening : job.opening? = some opening) (hb : s.Bounded)
    (hregular : ∀ t st, s.tableState? t = some st → st.table.Regular) : p.Fits .open := by
  cases h with
  | settles result hjob => cases hjob.symm.trans hopening
  | empties hjob => cases hjob.symm.trans hopening
  | opens | abandons => exact rfl
  | misses e => exact trivial
  | @places _ t _ _ _ _ _ st fd _ hjob hknows hs ht hslot =>
      have hlt := FdTable.lt_size hslot
      rw [(hregular t st ht).size] at hlt
      exact Nat.le_trans (Nat.le_of_lt hlt) (hb t st ht)
  | _ => cases hopening

namespace Machine

variable {H : History} {m : Machine} {e : Event} {job : Job} {origin : Origin}

/-- **Every job of an operation** comes to what the operation can come to. -/
theorem Sound.ensures_fits (h : m.Sound H) (hb : m.kernel.store.Bounded)
    (hjob : m.job? e = some (job, origin)) {op : ProcessOp} (hop : job.op? = some op) :
    job.action.Ensures m.kernel.store fun p _ => p.Fits op := by
  have hopen : ∀ {opening}, job.opening? = some opening →
      job.action.Ensures m.kernel.store fun p _ => p.Fits .open := fun {opening} hopening =>
    (h.ensures_fileEffect hjob (Job.mounts_of_opening hopening)).mono fun _ _ heffect =>
      heffect.fits_open hopening hb fun _ _ ht => h.books.regular ht
  cases job with
  | begin call =>
      cases call with
      | «open» v t path flags mode =>
          cases hop
          exact hopen rfl
      | close t fd =>
          cases hop
          exact Action.fits_closeFile t fd
      | transfer t fd op =>
          cases hop
          exact Action.fits_transfer t fd op
      | _ => cases hop
  | reject error => cases hop
  | resume frame reply =>
      cases frame with
      | opening t path record flags mode =>
          cases hop
          exact hopen rfl
      | abandoning t path =>
          cases hop
          exact Action.fits_abandoned t path reply
      | closing t fd entry =>
          cases hop
          cases reply with
          | failed e => exact Action.fits_closed t fd entry (some e)
          | _ => exact Action.fits_closed t fd entry none
      | transferring t op =>
          cases hop
          exact Action.fits_transferred t op reply
      | _ => cases hop

/-- No job leaves a table with descriptor numbers that are too large, or a file system out. -/
theorem Sound.ensures_bounded (h : m.Sound H) (hb : m.kernel.store.Bounded)
    (hjob : m.job? e = some (job, origin)) :
    job.action.Ensures m.kernel.store fun _ s' => s'.Bounded ∧
      m.kernel.store.instances.size ≤ s'.instances.size := by
  refine (h.ensures_effect hjob).mono ?_
  rintro p s' (hfile | hmount)
  · exact ⟨hfile.bounded hb, Nat.le_of_eq (by rw [hfile.instances_eq.1])⟩
  · exact ⟨hmount.bounded hb, hmount.keepsFiles.instances⟩

end Machine

end VirtualFs
