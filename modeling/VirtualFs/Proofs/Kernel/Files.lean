import VirtualFs.Kernel.Files
import VirtualFs.Proofs.Kernel.Lands

/-!
# Opening, using and closing files

Every action on a single file lands: the books agree again when it has come to a result or to a
question, whatever the driver has answered.

* `lands_openFile`, `lands_opened`: a path is opened, and its driver has opened the file.
* `lands_closeFile`, `lands_closed`, `lands_refused`: a slot is closed, and its driver has closed
  the file or has refused to.
* `lands_transfer`: an operation on an open file.
-/

namespace VirtualFs.Action

variable {cpu : Sync.Cpu LockId} {H : History} {C : List Closing} {s : Store} {t : TableId}
  {st : TableState} {fd : Nat} {entry : FdEntry}

/-! ### Closing -/

/-- Giving up a slot that is open no more. -/
theorem yields_vacate (hcpu : cpu.held = []) (ht : s.tableState? t = some st) {old : Slot}
    (hslot : st.table.slots[fd]? = some old) :
    (vacate t fd).Yields cpu s (.succeeded .done) (s.withTable t st (st.table.vacated fd)) := by
  rw [vacate]
  refine (yields_editTable (isLocked_of_held hcpu _) ht (a := ()) ?_).bind (yields_pure _)
  rw [FdTable.vacate_eq hslot]
  rfl

/-- Giving up a slot that was already taken out. -/
theorem yields_vacate_taken (hcpu : cpu.held = []) (ht : s.tableState? t = some st) {old : Slot}
    (hslot : st.table.slots[fd]? = some old) (r : References) :
    (vacate t fd).Yields cpu ((s.withTable t st (st.table.withSlot fd .closing)).withReferences r)
      (.succeeded .done) ((s.withTable t st (st.table.vacated fd)).withReferences r) := by
  have ht' := Store.tableState?_withState_self ht
    (some { st with table := st.table.withSlot fd .closing })
  have hslot' : (st.table.withSlot fd .closing).slots[fd]? = some .closing := by
    rw [FdTable.slots_withSlot hslot, if_pos rfl]
  have hy : (vacate t fd).Yields cpu
      ((s.withTable t st (st.table.withSlot fd .closing)).withReferences r) _ _ :=
    yields_vacate hcpu ht' hslot'
  rwa [Store.withTable_withTable, FdTable.vacated_withSlot] at hy

/-- **Closing the file of a slot.** -/
theorem lands_closeFile (b : Books H C s) (k : s.Served) (hcpu : cpu.held = [])
    (ht : s.tableState? t = some st) (hr : st.reachable = true) (fd : Nat) :
    (closeFile t fd).Lands cpu H C none s := by
  have hl := isLocked_of_held hcpu (.table t)
  rw [closeFile]
  rcases st.table.startClosing_cases fd with ⟨e, hstart⟩ | ⟨entry, hslot, hstart⟩
  · exact .bind_same (yields_tryEditTable_error hl ht (by rw [hstart]; rfl)) (lands_pure b k _)
  have hinstalled := b.opened (Books.opens_pos ht hslot)
  have hy : (tryEditTable t fun table => pure (table.startClosing fd)).Yields cpu s (.ok entry)
      (s.withTable t st (st.table.withSlot fd .closing)) :=
    yields_tryEditTable hl ht (by rw [hstart]; rfl)
  obtain ⟨outcome, hrelease, hlast⟩ :=
    yields_release b hcpu ht hslot (st.table.withSlot fd .closing)
  have hvacate := yields_vacate_taken hcpu ht hslot (s.references.less entry.descriptor)
  -- the slot is given up at once, unless it was the last and the driver is to be asked
  have hspares : ∀ table : FdTable, table.capacity = st.table.capacity →
      Store.Spares none s (s.withTable t st table) := fun _ => Store.spares_withTable ht (.inl hr)
  have hgone : ∀ act : Action Progress, act.Yields cpu s (.succeeded .done) _ →
      (s.opens entry.descriptor = 1 → H.given entry.descriptor.handle →
        H.asked entry.descriptor.handle) → act.Lands cpu H C none s := fun act hact hasked =>
    lands_finished hact (b.letGo ht hslot hasked) (k.congr rfl)
      ((hspares (st.table.vacated fd) rfl).withReferences _)
  cases outcome with
  | shared =>
      refine hgone _ (hy.bind (hrelease.bind hvacate)) ?_
      intro hone
      cases hlast.mpr hone
  | last =>
      cases hdriver : entry.descriptor.record.driver with
      | directory v =>
          obtain ⟨n, -, hhandle, -⟩ := b.handle_of_directory hinstalled hdriver
          refine hgone _ (hy.bind (hrelease.bind ?_)) fun _ hg => ?_
          · dsimp only
            rw [hdriver]
            exact (yields_note _).bind hvacate
          · exact absurd (hhandle ▸ hg) (b.not_given_directory n)
      | external driver =>
          have hreach : Store.isReachable (s.withTable t st (st.table.withSlot fd .closing)) t =
              true :=
            Store.isReachable_iff.mpr ⟨_, Store.tableState?_withState_self ht _, hr⟩
          refine lands_closing driver (hy.bind (hrelease.bind ?_))
            ((b.ask _).seize ht hslot (hlast.mp rfl) fun _ => .inl rfl) (k.congr rfl)
            ((hspares (st.table.withSlot fd .closing) rfl).withReferences _)
            ⟨hreach, driver, hdriver⟩
          dsimp only
          rw [hdriver]
          exact yields_ask _ _

/-- What a file that is being closed leaves behind when its slot is given up. -/
theorem spend_closing {c : Closing} (b : Books H (c :: C) s) {s' : Store} (b' : Books H C s')
    (hopens : ∀ d, s'.opens d = s.opens d) {n : Nat} (hn : n < s'.nextHandle)
    (hhandle : c.entry.descriptor.handle = .external n) :
    Books (H.spend c.entry.descriptor.handle) C s' := by
  obtain ⟨hinstalled, hidle⟩ := b.idle c List.mem_cons_self
  refine b'.spend ⟨n, hn, hhandle⟩ ?_
  intro d hd hh
  rw [b.handles hd hinstalled hh]
  exact ⟨(hopens _).trans hidle, fun c' hc he => (List.pairwise_cons.mp b.distinct).1 c' hc he.symm⟩

/-- **The driver has closed the file**: its slot is given up, and its handle is spent. -/
theorem lands_closed {c : Closing} (b : Books H (c :: C) s) (k : s.Served) (hcpu : cpu.held = [])
    (hv : (Frame.closing c.table c.fd c.entry).Valid s) :
    (closed c.table c.fd c.entry none).Lands cpu (H.spend c.entry.descriptor.handle) C none s := by
  obtain ⟨hreach, driver, hdriver⟩ := hv
  obtain ⟨st, ht, hslot⟩ := b.exists_closing
  obtain ⟨st', ht', hr⟩ := Store.isReachable_iff.mp hreach
  rw [ht] at ht'
  cases ht'
  obtain ⟨n, hn, hhandle⟩ := b.handle_of_external (b.idle c List.mem_cons_self).1 hdriver
  have hopens := Books.opens_closing ht hslot (st.table.vacated_slots c.fd)
  rw [closed]
  refine lands_finished ((yields_note _).bind (yields_vacate hcpu ht hslot))
    (spend_closing b (b.finish ht hslot) hopens hn hhandle) (k.congr rfl)
    (Store.spares_withTable ht (.inl hr) rfl)

/-- **The driver refuses to close the file**: it is back in its slot. -/
theorem lands_refused {c : Closing} (b : Books H (c :: C) s) (k : s.Served) (hcpu : cpu.held = [])
    (hv : (Frame.closing c.table c.fd c.entry).Valid s) (e : Error) :
    (closed c.table c.fd c.entry (some e)).Lands cpu H C none s := by
  have hl := isLocked_of_held hcpu
  obtain ⟨st, ht, hslot⟩ := b.exists_closing
  obtain ⟨st', ht', hr⟩ := Store.isReachable_iff.mp hv.1
  rw [ht] at ht'
  cases ht'
  obtain ⟨hinstalled, hidle⟩ := b.idle c List.mem_cons_self
  have hrestore : (editReferences c.entry.descriptor fun r => do
      return ((), ← r.restore c.entry.descriptor)).Yields cpu s ()
      (s.withReferences (s.references.more c.entry.descriptor)) := by
    refine yields_editReferences (hl _) ?_
    rw [References.restore_eq ((b.counted hinstalled).trans hidle)]
    rfl
  have ht' : (s.withReferences (s.references.more c.entry.descriptor)).tableState? c.table =
      some st := ht
  have hset : (editTable c.table fun table => do
      return ((), ← table.setSlot c.fd (.opened c.entry))).Yields cpu
      (s.withReferences (s.references.more c.entry.descriptor)) ()
      ((s.withTable c.table st (st.table.withSlot c.fd (.opened c.entry))).withReferences
        (s.references.more c.entry.descriptor)) := by
    refine yields_editTable (hl _) ht' ?_
    rw [FdTable.setSlot_eq hslot]
    rfl
  have hspares : Store.Spares none s
      (s.withTable c.table st (st.table.withSlot c.fd (.opened c.entry))) :=
    Store.spares_withTable ht (.inl hr) rfl
  rw [closed]
  exact lands_finished ((yields_note _).bind (hrestore.bind (hset.bind (yields_pure _))))
    (b.restore ht hslot) (k.congr rfl) (hspares.withReferences _)

/-! ### Opening -/

theorem yields_newDescriptor (path : Path) (handle : Handle) (record : Record) :
    (newDescriptor path handle record).Yields cpu s ⟨s.references.next, path, handle, record⟩
      (s.withReferences s.references.create) :=
  yields_unlocked rfl

theorem yields_newHandle : newHandle.Yields cpu s (.external s.nextHandle)
    { s with nextHandle := s.nextHandle + 1 } :=
  yields_unlocked rfl

/-- There is no slot for the file: a driver from outside closes it again, and its handle is
spent. -/
theorem lands_unplaced {handle : Handle} (b : Books (H.ask handle) C s) (k : s.Served)
    (hcpu : cpu.held = []) (ht : s.tableState? t = some st) {path : Path} {record : Record}
    (hnew : ∀ {d}, H.installed d → d.handle ≠ handle) (hspent : ¬ H.spent handle)
    (hserves : s.Serves record.driver handle) {flags : OpenFlags} {mode : UInt32}
    (hfull : st.table.install ⟨⟨s.references.next, path, handle, record⟩, flags, mode⟩ =
      .ok (.error .tooManyOpenFiles)) :
    (openedFile t path record handle flags mode).Lands cpu H C none s := by
  have ht' : (s.withReferences s.references.create).tableState? t = some st := ht
  have hy : (tryEditTable t fun table =>
      table.install ⟨⟨s.references.next, path, handle, record⟩, flags, mode⟩).Yields cpu _ _ _ :=
    yields_tryEditTable_error (isLocked_of_held hcpu _) ht' hfull
  have b' := b.newDescriptor
  rw [openedFile]
  cases hdriver : record.driver with
  | directory v =>
      rw [hdriver] at hserves
      obtain ⟨n, -, rfl, -⟩ := hserves.exists_directory
      have hbooks := b'.unask fun hg => absurd hg (b.not_given_directory n)
      refine lands_finished (r := .error .tooManyOpenFiles) ((yields_note _).bind
        ((yields_newDescriptor path _ record).bind (hy.bind ?_))) hbooks (k.congr rfl)
        ((Store.Spares.refl none s).withReferences _)
      exact yields_pure _
  | external driver =>
      rw [hdriver] at hserves
      have hgone : Books ((H.ask handle).spend handle) C (s.withReferences s.references.create) :=
        b'.spend hserves.exists_external fun d hd hh => absurd hh (hnew hd)
      refine lands_spending driver (.abandoning t path) ((yields_note _).bind
        ((yields_newDescriptor path handle record).bind (hy.bind ?_))) hgone (k.congr rfl)
        ((Store.Spares.refl none s).withReferences _) trivial rfl (fun u hu => by cases hu)
        ⟨handle, rfl, hspent, .inl rfl⟩
      exact yields_ask _ _

/-- **A file that was opened under a new handle** comes into a slot, if there is one. -/
theorem lands_openedFile {handle : Handle} (b : Books (H.ask handle) C s) (k : s.Served)
    (hcpu : cpu.held = []) (hr : s.isReachable t = true) (path : Path) {record : Record}
    (hnew : ∀ {d}, H.installed d → d.handle ≠ handle) (hspent : ¬ H.spent handle)
    (hserves : s.Serves record.driver handle) (flags : OpenFlags) (mode : UInt32) :
    (openedFile t path record handle flags mode).Lands cpu H C none s := by
  let d : Descriptor := ⟨s.references.next, path, handle, record⟩
  obtain ⟨st, ht, hr⟩ := Store.isReachable_iff.mp hr
  have ht' : (s.withReferences s.references.create).tableState? t = some st := ht
  have hfresh := b.fresh (d := d) rfl hnew hspent hserves
  rcases (b.regular ht).install_cases ⟨d, flags, mode⟩ with hfull | ⟨fd, rest, hfree, -, hinstall⟩
  · exact lands_unplaced b k hcpu ht hnew hspent hserves hfull
  · have hy : (tryEditTable t fun table => table.install ⟨d, flags, mode⟩).Yields cpu _ _ _ :=
      yields_tryEditTable (isLocked_of_held hcpu _) ht' hinstall
    have hspares : Store.Spares none s
        (s.withTable t st (st.table.installed fd ⟨d, flags, mode⟩)) :=
      Store.spares_withTable ht (.inl hr) rfl
    rw [openedFile]
    exact lands_leading ((yields_note _).bind ((yields_newDescriptor path handle record).bind
      (hy.bind (yields_pure _)))) (H.leads_install d)
      (b.newDescriptor.place ht' hfree ⟨d, flags, mode⟩ hfresh rfl) (k.congr rfl)
      (hspares.withReferences _)

/-- **The driver has opened the file** and given out a handle. -/
theorem lands_opened (b : Books H C s) (k : s.Served) (hcpu : cpu.held = []) {path : Path}
    {record : Record} {flags : OpenFlags} {mode : UInt32}
    (hv : (Frame.opening t path record flags mode).Valid s) :
    Lands (do openedFile t path record (← newHandle) flags mode) cpu
      (H.give (.external s.nextHandle)) C none s := by
  obtain ⟨hr, driver, hdriver⟩ := hv
  have hspares : s.Spares none { s with nextHandle := s.nextHandle + 1 } :=
    Store.spares_of_tables rfl (Nat.le_refl _)
  refine .bind yields_newHandle hspares (lands_openedFile b.newHandle (k.congr rfl) hcpu hr path
    (fun {d} hd he => ?_) (fun hs => ?_) ?_ flags mode)
  · have hserves := b.serves hd
    rw [he] at hserves
    exact Nat.lt_irrefl _ hserves.lt_nextHandle
  · obtain ⟨⟨n, hn, he⟩, -⟩ := b.spent hs
    cases he
    exact Nat.lt_irrefl _ hn
  · rw [hdriver]
    exact Nat.lt_succ_self _

/-- A node is opened as a directory, if there is one. -/
theorem yields_openDirectory {v : VfsId} {i : Instance} (hcpu : cpu.held = [])
    (hi : s.instances[v]? = some i) (path : Path) :
    (∃ e, (openDirectory v path).Yields cpu s (.error e) s) ∨
    (openDirectory v path).Yields cpu s (.ok (.directory s.openDirectories.size))
      { s with openDirectories := s.openDirectories.push ⟨path, .start⟩ } := by
  have hcontains := yields_askGraph (isLocked_of_held hcpu (.mounts v)) hi (·.contains path)
  rw [openDirectory]
  cases hc : i.graph.contains path with
  | false =>
      rw [hc] at hcontains
      exact .inl ⟨.notFound, hcontains.bind (yields_pure _)⟩
  | true =>
      rw [hc] at hcontains
      exact .inr (hcontains.bind (yields_unlocked rfl))

/-- An open directory comes into a slot like any file. -/
theorem lands_openedDirectory (b : Books H C s) (k : s.Served) (hcpu : cpu.held = [])
    (hr : s.isReachable t = true) {w : VfsId} (hw : s.hasVfs w = true) (path relative : Path)
    {record : Record} (hdriver : record.driver = .directory w) (flags : OpenFlags)
    (mode : UInt32) : Lands (do
      match ← openDirectory w relative with
      | .error e => return .failed e
      | .ok handle => openedFile t path record handle flags mode) cpu H C none s := by
  obtain ⟨i, hi⟩ := Store.exists_instance hw
  rcases yields_openDirectory hcpu hi relative with ⟨e, hy⟩ | hy
  · exact .bind_same hy (lands_pure b k _)
  · let s' : Store := { s with openDirectories := s.openDirectories.push ⟨relative, .start⟩ }
    have hspares : s.Spares none s' := Store.spares_of_tables rfl (Nat.le_refl _)
    have b' : Books H C s' :=
      b.congr rfl (fun _ => rfl) (Nat.le_refl _) rfl (by simp [s']) (Nat.le_refl _)
    refine .bind hy hspares (lands_openedFile (b'.ask _) (k.congr rfl) hcpu hr path
      (fun {d} hd he => ?_) (fun hs => ?_) ?_ flags mode)
    · have hserves := b.serves hd
      rw [he] at hserves
      exact Nat.lt_irrefl _ hserves.lt_openDirectories
    · obtain ⟨⟨n, -, he⟩, -⟩ := b.spent hs
      cases he
    · rw [hdriver]
      exact ⟨hw, by simp [s']⟩

/-- The driver that serves a path is asked, or lists its nodes. -/
theorem lands_openWith (b : Books H C s) (k : s.Served) (hcpu : cpu.held = [])
    (hr : s.isReachable t = true) (path relative : Path) {record : Record}
    (hdriver : s.hasDriver record.driver = true) (flags : OpenFlags) (mode : UInt32) :
    Lands (match record.driver with
      | .external driver =>
        ask (.open driver relative flags mode) (.opening t path record flags mode)
      | .directory w => do
        match ← openDirectory w relative with
        | .error e => return .failed e
        | .ok handle => openedFile t path record handle flags mode) cpu H C none s := by
  cases hd : record.driver with
  | external driver =>
      exact lands_waiting (yields_ask _ _) b k (.refl none s) ⟨hr, driver, hd⟩ rfl rfl rfl
  | directory w =>
      rw [hd] at hdriver
      exact lands_openedDirectory b k hcpu hr hdriver path relative hd flags mode

/-- **Opening the file at a path.** -/
theorem lands_openFile (b : Books H C s) (k : s.Served) (hcpu : cpu.held = []) {v : VfsId}
    (hv : s.hasVfs v = true) (hr : s.isReachable t = true) (path : Path) (flags : OpenFlags)
    (mode : UInt32) : (openFile v t path flags mode).Lands cpu H C none s := by
  obtain ⟨i, hi⟩ := Store.exists_instance hv
  rw [openFile]
  cases Path.absolute? path with
  | none => exact lands_pure b k _
  | some clean =>
      have hresolve := yields_askGraph (isLocked_of_held hcpu (.mounts v)) hi (·.resolve clean)
      refine .bind_same hresolve ?_
      cases hres : i.graph.resolve clean with
      | error e => exact lands_pure b k _
      | ok resolution =>
          cases resolution with
          | driver record offset =>
              exact .bind_same (yields_pure record)
                (lands_openWith b k hcpu hr clean _ ((k.graphs hi).of_resolve hres) flags mode)
          | node =>
              have hy : (unlocked do return (← Section.getVfs v).directories).Yields cpu s
                  i.directories s :=
                yields_unlocked (Section.bind_eq (Section.getVfs_eq hi) rfl)
              exact .bind_same hy
                (lands_openWith b k hcpu hr clean _ (k.directories hi) flags mode)

/-! ### Operations -/

/-- An action that leaves the store, and one after it that ends well whatever the first answers. -/
theorem exists_yields_bind {α β : Type} {act : Action α} {f : α → Action β} {P : Store → Prop}
    (h : ∃ a, act.Yields cpu s a s) (hf : ∀ a, ∃ b s', (f a).Yields cpu s b s' ∧ P s') :
    ∃ b s', (act >>= f).Yields cpu s b s' ∧ P s' := by
  obtain ⟨a, ha⟩ := h
  obtain ⟨b, s', hb, hP⟩ := hf a
  exact ⟨b, s', ha.bind hb, hP⟩

/-- Reading an open directory on comes to a result, and moves at most the cursor. -/
theorem yields_advance {v : VfsId} {i : Instance} (hl : cpu.isLocked (.mounts v) = false)
    (hi : s.instances[v]? = some i) {serial : Nat} (hserial : serial < s.openDirectories.size) :
    ∃ result s', (advance v serial).Yields cpu s result s' ∧
      ∃ directories, s' = { s with openDirectories := directories } ∧
        directories.size = s.openDirectories.size := by
  have hdirectory : (directory serial).Yields cpu s s.openDirectories[serial] s :=
    yields_unlocked (Section.bind_eq rfl
      (Section.orUnknown_eq (Array.getElem?_eq_getElem hserial) s))
  rw [advance]
  refine exists_yields_bind ⟨_, hdirectory⟩ ?_
  intro d
  cases d.cursor
  case' start => refine exists_yields_bind ⟨_, yields_askGraph hl hi _⟩ ?_
  case' after name => refine exists_yields_bind ⟨_, yields_askGraph hl hi _⟩ ?_
  case' finished => refine exists_yields_bind ⟨_, yields_pure _⟩ ?_
  -- whatever entry comes next, the cursor moves behind it
  all_goals
    rintro (e | _ | entry)
    · exact ⟨_, s, yields_pure _, s.openDirectories, rfl, rfl⟩
    · exact ⟨_, _, (yields_unlocked rfl).bind (yields_pure _), _, rfl, by simp⟩
    · exact ⟨_, _, (yields_unlocked rfl).bind (yields_pure _), _, rfl, by simp⟩

/-- The entry of an open slot, if it has the permission. -/
theorem yields_permitted (hcpu : cpu.held = []) (ht : s.tableState? t = some st) (fd : Nat)
    (permission : OpenFlags) : (∃ e, (permitted t fd permission).Yields cpu s (.error e) s) ∨
    ∃ entry, (permitted t fd permission).Yields cpu s (.ok entry) s ∧
      st.table.slots[fd]? = some (.opened entry) := by
  have hget : (onTable t fun table => pure (table.get fd)).Yields cpu s (st.table.get fd) s :=
    yields_onTable (isLocked_of_held hcpu _) ht rfl
  rw [permitted]
  cases hentry : st.table.get fd with
  | error e =>
      rw [hentry] at hget
      exact .inl ⟨e, hget.bind (yields_pure _)⟩
  | ok entry =>
      rw [hentry] at hget
      by_cases hp : entry.flags.contains permission = true
      · refine .inr ⟨entry, hget.bind ?_, FdTable.get_eq_ok_iff.mp hentry⟩
        dsimp only
        rw [if_pos hp]
        exact yields_pure _
      · refine .inl ⟨.permissionDenied, hget.bind ?_⟩
        dsimp only
        rw [if_neg hp]
        exact yields_pure _

/-- **An operation on an open file.** -/
theorem lands_transfer (b : Books H C s) (k : s.Served) (hcpu : cpu.held = [])
    (ht : s.tableState? t = some st) (fd : Nat) (op : Transfer) :
    (transfer t fd op).Lands cpu H C none s := by
  rw [transfer]
  rcases yields_permitted hcpu ht fd op.permission with ⟨e, hy⟩ | ⟨entry, hy, hslot⟩
  · exact .bind_same hy (lands_pure b k _)
  have hinstalled := b.opened (Books.opens_pos ht hslot)
  refine .bind_same hy ?_
  dsimp only
  cases hdriver : entry.descriptor.record.driver with
  | external driver =>
      exact lands_waiting (yields_ask _ _) b k (.refl none s) trivial rfl rfl (by cases op <;> rfl)
  | directory v =>
      obtain ⟨n, hn, hhandle, hv⟩ := b.handle_of_directory hinstalled hdriver
      cases op with
      | readdir =>
          obtain ⟨i, hi⟩ := Store.exists_instance hv
          have hfree := isLocked_of_held hcpu
          have hmounts : (cpu.acquire (.cursor n)).isLocked (.mounts v) = false :=
            isLocked_acquire (hfree _) LockId.noConfusion
          obtain ⟨result, _, hadvance, directories, rfl, hsize⟩ := yields_advance hmounts hi hn
          have hread : (readDirectory v entry.descriptor.handle).Yields cpu s result
              { s with openDirectories := directories } := by
            rw [hhandle]
            exact yields_holding (hfree _) hadvance
          have b' : Books H C { s with openDirectories := directories } :=
            b.congr rfl (fun _ => rfl) (Nat.le_refl _) rfl (Nat.le_of_eq hsize.symm) (Nat.le_refl _)
          have hspares : s.Spares none { s with openDirectories := directories } :=
            Store.spares_of_tables rfl (Nat.le_refl _)
          refine .bind hread hspares ?_
          cases result with
          | error e => exact lands_pure b' (k.congr rfl) _
          | ok next => exact lands_pure b' (k.congr rfl) _
      | read length => exact lands_pure b k _
      | write data => exact lands_pure b k _
      | control code argument => exact lands_pure b k _

end VirtualFs.Action
