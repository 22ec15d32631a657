import VirtualFs.Proofs.Kernel.Opening
import VirtualFs.Proofs.Kernel.Undisturbed

/-!
# Files that are not opened

Opening a file can fail before a driver is asked, because the driver refuses, and after the driver
has opened the file, because no slot is free for it.  In the last case the kernel has a handle that
it cannot keep, and the driver is asked to close it, once, whatever it answers.  Where drivers do
not call back, a call that fails leaves all tables, counts and mounts as they were.

* `OpenRequest.Fails`: the ways to fail, each with what is asked and answered.
* `Trying`, `Happens.tries`, `Trying.next`: how far a call has come, from its first step through
  every answer.
* `failed_opens_leave_no_trace`: every failing call of every run.
-/

namespace VirtualFs

namespace Store

/-- No slot of the table is free. -/
def Full (s : Store) (t : TableId) : Prop := ∀ fd, s.slot? t fd ≠ some .free

/-- No file has been opened: all tables and all mounts are as they were, and so are the references
to every descriptor that there was. -/
structure Unopened (s s' : Store) : Prop extends s.Tries s' where
  counts : ∀ id < s.references.next, s'.references.count id = s.references.count id

variable {s s' s₁ : Store}

theorem Unopened.refl (s : Store) : s.Unopened s := ⟨.refl s, fun _ _ => rfl⟩

/-- A descriptor has been made that has come into no slot. -/
theorem Tries.unopened (h : s.Tries s₁) (hreferences : s₁.references = s.references) :
    s.Unopened (s₁.withReferences s₁.references.create) where
  toTries := h.withReferences _
  counts id hid := by
    show s₁.references.create.count id = _
    rw [References.count_create, hreferences, if_neg (Nat.ne_of_lt hid)]

end Store

/-- Where no number is queued, no slot is free. -/
theorem Happens.full {past : List Moment} {now : Moment} (h : Happens past now) {s : Store}
    (htables : s.tables = now.before.kernel.store.tables) {t : TableId} {st : TableState}
    (ht : s.tableState? t = some st) (hfree : st.table.free = []) :
    now.before.kernel.store.Full t := by
  intro fd hslot
  obtain ⟨H, r⟩ := h.before
  have ht' : now.before.kernel.store.tableState? t = some st := by
    rw [← ht, Store.tableState?, Store.tableState?, htables]
  rw [Store.slot?, ht', Option.bind_some, ← (r.sound.books.regular ht').free, hfree] at hslot
  cases hslot

namespace OpenRequest

/-- **How opening a file fails**, begun in the state `s` of which `i` is the file system: what is
asked and answered meanwhile, and the error.  The handle that a driver gives out next is
`.external s.nextHandle`. -/
inductive Fails (q : OpenRequest) (s : Store) (i : Instance) :
    List (HookCall × Reply) → Error → Prop
  /-- The path is not absolute. -/
  | relative (h : q.path.head? ≠ some Path.delimiter) : Fails q s i [] .invalidArgument
  /-- Nobody serves the path: there is neither a mount on the way along it nor a node. -/
  | unserved (h : q.OffMounts i) (hmissing : i.graph.contains (Path.clean q.path) = false) :
      Fails q s i [] .notFound
  /-- The mount is of the nodes of a file system that has none at this path. -/
  | unlisted {record : Record} {rest : Path} {w : VfsId} {j : Instance}
      (h : q.OnMount i record rest) (hdriver : record.driver = .directory w)
      (hj : s.instances[w]? = some j) (hmissing : j.graph.contains rest = false) :
      Fails q s i [] .notFound
  /-- The driver refuses. -/
  | refused {record : Record} {rest : Path} {driver : External} {e : Error}
      (h : q.ServedBy i record rest) (hdriver : record.driver = .external driver) :
      Fails q s i [(.open driver rest q.flags q.mode, .failed e)] e
  /-- The driver opens the file and no slot is free: it is asked to close the very file. -/
  | abandoned {record : Record} {rest : Path} {driver : External} {reply : Reply}
      (h : q.ServedBy i record rest) (hdriver : record.driver = .external driver)
      (hfull : s.Full q.table) :
      Fails q s i [(.open driver rest q.flags q.mode, .opened),
        (.close driver (.external s.nextHandle), reply)] .tooManyOpenFiles
  /-- The built-in driver opens a node as a directory and no slot is free: it is nobody outside, and
  has nothing to close. -/
  | unplaced {record : Record} {rest : Path} {w : VfsId} {j : Instance}
      (h : q.ServedBy i record rest) (hdriver : record.driver = .directory w)
      (hj : s.instances[w]? = some j) (hnode : j.graph.contains rest = true)
      (hfull : s.Full q.table) : Fails q s i [] .tooManyOpenFiles

end OpenRequest

/-- **How far a call to open a file has come** that was begun in the state `s`, where nobody has
called since. -/
inductive Trying (q : OpenRequest) (s : Store) (i : Instance) :
    List (HookCall × Reply) → Moment → Prop
  | failed {dialogue : List (HookCall × Reply)} {e : Error} {now : Moment}
      (h : q.Fails s i dialogue e) (hreturned : now.outcome = .returned (.error e))
      (hsame : s.Unopened now.after.kernel.store) : Trying q s i dialogue now
  | opened {dialogue : List (HookCall × Reply)} {fd : Nat} {now : Moment}
      (hreturned : now.outcome = .returned (.ok (.fd fd))) : Trying q s i dialogue now
  /-- The driver is being asked to open the file. -/
  | opening {record : Record} {rest : Path} {driver : External} {now : Moment}
      (h : q.ServedBy i record rest) (hdriver : record.driver = .external driver)
      (hwaits : now.Waits (.open driver rest q.flags q.mode)
        (.opening q.table (Path.clean q.path) record q.flags q.mode))
      (hsame : now.after.kernel.store = s) : Trying q s i [] now
  /-- The driver has opened the file, and is being asked to close it again. -/
  | abandoning {record : Record} {rest : Path} {driver : External} {now : Moment}
      (h : q.ServedBy i record rest) (hdriver : record.driver = .external driver)
      (hfull : s.Full q.table)
      (hwaits : now.Waits (.close driver (.external s.nextHandle))
        (.abandoning q.table (Path.clean q.path)))
      (hsame : s.Unopened now.after.kernel.store) :
      Trying q s i [(.open driver rest q.flags q.mode, .opened)] now

section

variable {past : List Moment} {start turn now : Moment} {q : OpenRequest} {i : Instance}

/-- **The first step** fails, or asks the driver, or has opened a node. -/
theorem Happens.tries (h : Happens past start) (he : start.event = .call q.call)
    (hi : start.before.kernel.store.instances[q.vfs]? = some i)
    (ha : start.before.admits q.call = true) (hown : i.directories.driver = .directory q.vfs) :
    Trying q start.before.kernel.store i [] start := by
  obtain ⟨H, r⟩ := h.before
  obtain ⟨p, c⟩ := h.carries he ha
  have hregular := (r.sound.served.graphs hi).regular
  have hbegins := c.ensures (Action.ensures_opening q.vfs q.table q.path q.flags q.mode)
  generalize hs : start.after.kernel.store = s' at hbegins
  cases hbegins with
  | invalid hrelative =>
    exact .failed (.relative (Path.absolute?_eq_none.mp hrelative)) c.ends.of_finished.1
      (hs ▸ .refl _)
  | missing hclean hj hnone =>
    cases hi.symm.trans hj
    obtain ⟨rfl, hoff, hmissing⟩ := OpenRequest.offMounts_of_error hregular hown hclean hnone
    exact .failed (.unserved hoff hmissing) c.ends.of_finished.1 (hs ▸ .refl _)
  | asks hdirects hdriver =>
    obtain ⟨rfl, hserved⟩ := OpenRequest.served_of_directs hregular hown hi hdirects
    exact .opening hserved hdriver ⟨c.ends.of_waiting.1, c.ends.of_waiting.2⟩ hs
  | unlisted hdirects hdriver hj hmissing =>
    obtain ⟨-, hserved⟩ := OpenRequest.served_of_directs hregular hown hi hdirects
    exact .failed (.unlisted (hserved.onMount hi hdriver hj hmissing) hdriver hj hmissing)
      c.ends.of_finished.1 (hs ▸ .refl _)
  | @lists clean rest record w _ _ _ hdirects hdriver hj hcontains hplaces =>
    obtain ⟨rfl, hserved⟩ := OpenRequest.served_of_directs hregular hown hi hdirects
    cases hplaces with
    | placed => exact .opened c.ends.of_finished.1
    | refused _ ht hfree =>
      have htries : start.before.kernel.store.Tries { start.before.kernel.store with
          openDirectories := start.before.kernel.store.openDirectories.push ⟨rest, .start⟩ } := by
        refine ⟨rfl, rfl, fun {n d} hd => ?_, rfl⟩
        rw [Array.getElem?_push, if_neg (Nat.ne_of_lt (Array.getElem?_eq_some_iff.mp hd).1)]
        exact hd
      exact .failed (.unplaced hserved hdriver hj hcontains (h.full rfl ht hfree))
        c.ends.of_finished.1 (hs ▸ htries.unopened rfl)
    | abandoned hexternal => cases hdriver.symm.trans hexternal

namespace Trying

variable {s : Store}

/-- **Every answer** takes the call further. -/
theorem next {dialogue : List (HookCall × Reply)} {question : HookCall} {reply : Reply}
    (k : Trying q s i dialogue turn) (h : Happens past now) (hsame : now.before = turn.after)
    (hc : turn.Continues now question reply) :
    Trying q s i (dialogue ++ [(question, reply)]) now := by
  cases k with
  | failed _ hreturned => cases hc.asked.symm.trans hreturned
  | opened hreturned => cases hc.asked.symm.trans hreturned
  | opening hserved hdriver hwaits hstore =>
    cases hc.asked.symm.trans hwaits.asked
    obtain ⟨haccepts, p, c⟩ := hc.carried hwaits.stack
    have hbefore : now.before.kernel.store = s := hsame ▸ hstore
    cases reply with
    | failed e =>
      obtain ⟨rfl, hafter⟩ := c.ensures (Q := fun p s' =>
        p = .failed e ∧ s' = now.before.kernel.store) (Action.ensures_pure ⟨rfl, rfl⟩)
      exact .failed (.refused hserved hdriver) c.ends.of_finished.1 (hafter.trans hbefore ▸ .refl s)
    | opened =>
      have hplaces := c.ensures (Q := Action.Places
          { now.before.kernel.store with nextHandle := now.before.kernel.store.nextHandle + 1 }
          q.table (q.entry now.before.kernel.store.references.next _
            (.external now.before.kernel.store.nextHandle)))
        (Action.ensures_newHandle.bind fun _ _ ⟨he, hs⟩ => by
          subst he hs
          exact Action.ensures_openedFile q.table _ _ _ q.flags q.mode)
      generalize hs : now.after.kernel.store = s' at hplaces
      cases hplaces with
      | placed => exact .opened c.ends.of_finished.1
      | refused hdirectory => cases hdriver.symm.trans hdirectory
      | abandoned hexternal ht hfree =>
        cases hdriver.symm.trans hexternal
        have hfull := h.full rfl ht hfree
        subst hbefore
        exact .abandoning hserved hdriver hfull ⟨c.ends.of_waiting.1, c.ends.of_waiting.2⟩
          (hs ▸ Store.Tries.unopened ⟨rfl, rfl, id, rfl⟩ rfl)
    | _ => cases haccepts
  | abandoning hserved hdriver hfull hwaits hstore =>
    cases hc.asked.symm.trans hwaits.asked
    obtain ⟨-, p, c⟩ := hc.carried hwaits.stack
    obtain ⟨rfl, hafter⟩ := c.ensures (Action.ensures_abandoning q.table (Path.clean q.path) reply)
    rw [hsame] at hafter
    exact .failed (.abandoned hserved hdriver hfull) c.ends.of_finished.1 (hafter ▸ hstore)

/-- What is known when the call has failed. -/
theorem fails {dialogue : List (HookCall × Reply)} {e : Error} (k : Trying q s i dialogue now)
    (hreturned : now.outcome = .returned (.error e)) :
    q.Fails s i dialogue e ∧ s.Unopened now.after.kernel.store := by
  cases k with
  | failed h hreturned' hsame =>
    cases hreturned.symm.trans hreturned'
    exact ⟨h, hsame⟩
  | opened hreturned' => cases hreturned.symm.trans hreturned'
  | opening _ _ hwaits => cases hreturned.symm.trans hwaits.asked
  | abandoning _ _ _ hwaits => cases hreturned.symm.trans hwaits.asked

end Trying

end

/-- **A call to open a file that fails** leaves all tables, counts and mounts as they were, where
drivers do not call back.  Nobody is asked for a path that is not absolute or that nobody serves;
the driver is asked once and its error is reported; or, only where no slot is free, the driver opens
the file and is asked once to close that very file, and whatever it answers the table is reported to
be full. -/
theorem failed_opens_leave_no_trace (word enableMask : Sync.Word) (events : List Event) :
    ∃ moments, (Machine.initial word enableMask).trace [] events = .ok moments ∧
      ∀ past start later future dialogue now q e,
        moments = past ++ start :: (later ++ future) → start.Turn later dialogue now →
        Moment.Quiet later → start.event = .call (OpenRequest.call q) →
        now.outcome = .returned (.error e) →
        (∃ i, start.before.kernel.store.instances[q.vfs]? = some i ∧
          q.Fails start.before.kernel.store i dialogue e) ∧
        start.before.kernel.store.Unopened now.after.kernel.store := by
  obtain ⟨moments, htrace, hmoments⟩ := Recalls.reached_undisturbed
    (fun h _ k => Catalog.step h k) word enableMask (.initial word enableMask) events
  refine ⟨moments, htrace, fun past start later future dialogue now q e he hturn hquiet hevent
    hreturned => ?_⟩
  obtain ⟨⟨h, -, -⟩, k⟩ := hmoments past start (later ++ future) he
  have ha := h.admits_of_taken hevent (hturn.taken (by rw [hreturned]; nofun))
  obtain ⟨i, hi⟩ := Store.exists_instance (Bool.and_eq_true_iff.mp ha).1
  have htrying : Trying q start.before.kernel.store i dialogue now :=
    Undisturbed.turns (fun past now future he => (hmoments past now future he).1) he hturn hquiet
      (h.tries hevent hi ha (k.own _ i hi)) fun k h hsame hc => k.next h hsame hc
  obtain ⟨hfails, hsame⟩ := htrying.fails hreturned
  exact ⟨⟨i, hi, hfails⟩, hsame⟩

end VirtualFs
