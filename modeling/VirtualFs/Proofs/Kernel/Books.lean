import VirtualFs.Proofs.Descriptor.References
import VirtualFs.Proofs.Kernel.Slots

/-!
# The books on open files

`Books H C s` says that the tables, the reference counts and the handles of the store `s` agree
with each other, while the files in `C` are being closed and after what `H` remembers.  At its
heart are three sums: the count of a descriptor is the number of slots that hold it; a file that is
being closed has no such slot; and every handle that was ever opened is held by a slot or has been
closed.

* `Books.letGo`, `Books.discard`, `Books.seize`: an open slot is given up, or its file is taken out
  to be closed.
* `Books.finish`, `Books.restore`: the driver has closed the file, or has refused to.
* `Books.install`, `Books.place`: a new file comes into a slot.
* `Books.newTable`, `Books.reshape`: a table is added, or only what the books do not look at
  changes.
-/

namespace VirtualFs

/-- A file that is being closed: the slot it is closed from, and what that held. -/
structure Closing where
  table : TableId
  fd : Nat
  entry : FdEntry

/-- What is remembered of the past. -/
structure History where
  /-- The descriptors that have been in a slot. -/
  installed : Descriptor → Prop
  /-- The handles that drivers have given out. -/
  given : Handle → Prop
  /-- The handles that drivers have been asked to close. -/
  asked : Handle → Prop
  /-- The handles that no driver is to be asked to close again. -/
  spent : Handle → Prop

namespace History

/-- A driver gives the handle out. -/
def give (H : History) (h : Handle) : History :=
  { H with given := fun h' => h' = h ∨ H.given h' }

/-- A driver is asked to close the handle. -/
def ask (H : History) (h : Handle) : History :=
  { H with asked := fun h' => h' = h ∨ H.asked h' }

/-- The handle is not to be closed again. -/
def spend (H : History) (h : Handle) : History :=
  { H with spent := fun h' => h' = h ∨ H.spent h' }

/-- The descriptor comes into a slot. -/
def install (H : History) (d : Descriptor) : History :=
  { H with installed := fun d' => d' = d ∨ H.installed d' }

end History

namespace Store

/-- The driver knows the file by the handle: a driver from outside has given it out, and the
built-in one has a directory open under it. -/
def Serves (s : Store) : Driver → Handle → Prop
  | .external _, .external n => n < s.nextHandle
  | .directory v, .directory n => s.hasVfs v = true ∧ n < s.openDirectories.size
  | _, _ => False

namespace Serves

variable {s s' : Store} {driver : Driver} {handle : Handle} {n : Nat}

/-- A driver from outside knows a file by a handle that was given out. -/
theorem exists_external {outside : External} (h : s.Serves (.external outside) handle) :
    ∃ n < s.nextHandle, handle = .external n := by
  cases handle with
  | external n => exact ⟨n, h, rfl⟩
  | directory n => exact h.elim

/-- The built-in driver knows it by an open directory. -/
theorem exists_directory {v : VfsId} (h : s.Serves (.directory v) handle) :
    ∃ n < s.openDirectories.size, handle = .directory n ∧ s.hasVfs v = true := by
  cases handle with
  | external n => exact h.elim
  | directory n => exact ⟨n, h.2, rfl, h.1⟩

/-- A handle that a driver from outside knows was given out. -/
theorem lt_nextHandle (h : s.Serves driver (.external n)) : n < s.nextHandle := by
  cases driver with
  | external outside => exact h
  | directory v => exact h.elim

/-- A handle that the built-in driver knows is that of an open directory. -/
theorem lt_openDirectories (h : s.Serves driver (.directory n)) : n < s.openDirectories.size := by
  cases driver with
  | external outside => exact h.elim
  | directory v => exact h.2

/-- A driver knows a file as long as handles, open directories and file systems stay. -/
theorem mono (h : s.Serves driver handle) (hhandle : s.nextHandle ≤ s'.nextHandle)
    (hdirectories : s.openDirectories.size ≤ s'.openDirectories.size)
    (hinstances : s.instances.size ≤ s'.instances.size) : s'.Serves driver handle := by
  cases driver with
  | external outside =>
      obtain ⟨n, hn, rfl⟩ := h.exists_external
      exact Nat.lt_of_lt_of_le hn hhandle
  | directory v =>
      obtain ⟨n, hn, rfl, hv⟩ := h.exists_directory
      exact ⟨decide_eq_true (Nat.lt_of_lt_of_le (decide_eq_true_eq.mp hv) hinstances),
        Nat.lt_of_lt_of_le hn hdirectories⟩

end Serves

end Store

/-- The books agree. -/
structure Books (H : History) (C : List Closing) (s : Store) : Prop where
  regular : ∀ {t st}, s.tableState? t = some st → st.table.Regular
  /-- The slots of the files that are being closed are the closing ones. -/
  closing : ∀ t fd, s.slot? t fd = some .closing ↔ ∃ c ∈ C, c.table = t ∧ c.fd = fd
  places : C.Pairwise fun a b => a.table = b.table → a.fd ≠ b.fd
  distinct : C.Pairwise fun a b => a.entry.descriptor ≠ b.entry.descriptor
  idle : ∀ c ∈ C, H.installed c.entry.descriptor ∧ s.opens c.entry.descriptor = 0
  opened : ∀ {d}, 0 < s.opens d → H.installed d
  counted : ∀ {d}, H.installed d → s.references.count d.id = s.opens d
  numbered : ∀ {d}, H.installed d → d.id < s.references.next
  serves : ∀ {d}, H.installed d → s.Serves d.record.driver d.handle
  ids : ∀ {a b}, H.installed a → H.installed b → a.id = b.id → a = b
  handles : ∀ {a b}, H.installed a → H.installed b → a.handle = b.handle → a = b
  given : ∀ {h}, H.given h → ∃ n < s.nextHandle, h = .external n
  /-- A handle that was given out is held by a slot, or a driver has been asked to close it. -/
  accounted : ∀ {h}, H.given h → H.asked h ∨ ∃ d, H.installed d ∧ d.handle = h ∧ 0 < s.opens d
  /-- A handle that is not to be closed again is in no slot, open or closing. -/
  spent : ∀ {h}, H.spent h → (∃ n < s.nextHandle, h = .external n) ∧
    ∀ d, H.installed d → d.handle = h → s.opens d = 0 ∧ ∀ c ∈ C, c.entry.descriptor ≠ d

namespace Books

variable {H : History} {C : List Closing} {s s' : Store} {t : TableId} {st : TableState} {fd : Nat}
  {entry : FdEntry}

/-! ### What more holders change -/

/-- With as many holders as before or more, all handles are still accounted for. -/
theorem accounted_mono (b : Books H C s) (hle : ∀ d, s.opens d ≤ s'.opens d) {h : Handle}
    (hg : H.given h) : H.asked h ∨ ∃ d, H.installed d ∧ d.handle = h ∧ 0 < s'.opens d := by
  refine (b.accounted hg).imp_right ?_
  rintro ⟨d, hd, hh, hpos⟩
  exact ⟨d, hd, hh, Nat.lt_of_lt_of_le hpos (hle d)⟩

/-- A handle that is spent stays out of all slots, if no idle file comes back but one that is being
closed. -/
theorem spent_mono (b : Books H C s) {C' : List Closing} (hsub : ∀ c ∈ C', c ∈ C)
    (hidle : ∀ d, s.opens d = 0 → (∀ c ∈ C, c.entry.descriptor ≠ d) → s'.opens d = 0)
    {h : Handle} (hs : H.spent h) : (∃ n < s.nextHandle, h = .external n) ∧
      ∀ d, H.installed d → d.handle = h → s'.opens d = 0 ∧
        ∀ c ∈ C', c.entry.descriptor ≠ d := by
  obtain ⟨hgiven, hgone⟩ := b.spent hs
  refine ⟨hgiven, ?_⟩
  intro d hd hh
  obtain ⟨hzero, hnot⟩ := hgone d hd hh
  exact ⟨hidle d hzero hnot, fun c hc => hnot c (hsub c hc)⟩

/-! ### What the books do not look at -/

/-- Only what the books do not look at has changed. -/
theorem reshape (b : Books H C s)
    (hregular : ∀ {t st}, s'.tableState? t = some st → st.table.Regular)
    (hclosing : ∀ t fd, s'.slot? t fd = some .closing ↔ s.slot? t fd = some .closing)
    (hopens : ∀ d, s'.opens d = s.opens d)
    (hcount : ∀ {d}, H.installed d → s'.references.count d.id = s.references.count d.id)
    (hnext : s.references.next ≤ s'.references.next) (hhandle : s'.nextHandle = s.nextHandle)
    (hserves : ∀ driver handle, s.Serves driver handle → s'.Serves driver handle) :
    Books H C s' where
  regular := hregular
  closing t fd := (hclosing t fd).trans (b.closing t fd)
  places := b.places
  distinct := b.distinct
  idle c hc := by
    rw [hopens]
    exact b.idle c hc
  opened h := b.opened (hopens _ ▸ h)
  counted h := by rw [hcount h, hopens, b.counted h]
  numbered h := Nat.lt_of_lt_of_le (b.numbered h) hnext
  serves h := hserves _ _ (b.serves h)
  ids := b.ids
  handles := b.handles
  given hg := by
    obtain ⟨n, hn, he⟩ := b.given hg
    exact ⟨n, hhandle.symm ▸ hn, he⟩
  accounted := b.accounted_mono fun d => Nat.le_of_eq (hopens d).symm
  spent h := by
    rw [hhandle]
    exact b.spent_mono (fun _ hc => hc) (fun d hzero _ => (hopens d).trans hzero) h

/-- The tables and the handles are as before, and what there is else has only grown. -/
theorem congr (b : Books H C s) (htables : s'.tables = s.tables)
    (hcount : ∀ {d}, H.installed d → s'.references.count d.id = s.references.count d.id)
    (hnext : s.references.next ≤ s'.references.next) (hhandle : s'.nextHandle = s.nextHandle)
    (hdirectories : s.openDirectories.size ≤ s'.openDirectories.size)
    (hinstances : s.instances.size ≤ s'.instances.size) : Books H C s' := by
  have hstate : s'.tableState? = s.tableState? := by
    funext t
    rw [Store.tableState?, Store.tableState?, htables]
  have hslot : s'.slot? = s.slot? := by
    funext t fd
    rw [Store.slot?, Store.slot?, hstate]
  refine b.reshape (fun h => b.regular (hstate ▸ h)) (fun t fd => by rw [hslot]) (fun d => ?_)
    hcount hnext hhandle fun driver handle h => ?_
  · rw [Store.opens, Store.opens, htables]
  · exact h.mono (Nat.le_of_eq hhandle.symm) hdirectories hinstances

/-! ### What is remembered -/

theorem ask (b : Books H C s) (h : Handle) : Books (H.ask h) C s :=
  { b with accounted := fun hg => (b.accounted hg).imp_left .inr }

/-- A handle that a slot holds, or that no driver gave out, is accounted for without having been
closed. -/
theorem unask {h : Handle} (b : Books (H.ask h) C s)
    (hd : H.given h → ∃ d, H.installed d ∧ d.handle = h ∧ 0 < s.opens d) : Books H C s :=
  { b with
    accounted := by
      intro _ hg
      rcases b.accounted hg with (rfl | h) | h
      · exact .inr (hd hg)
      · exact .inl h
      · exact .inr h }

/-- A handle may be spent when nothing holds it any more. -/
theorem spend (b : Books H C s) {h : Handle} (hgiven : ∃ n < s.nextHandle, h = .external n)
    (hgone : ∀ d, H.installed d → d.handle = h → s.opens d = 0 ∧ ∀ c ∈ C, c.entry.descriptor ≠ d) :
    Books (H.spend h) C s :=
  { b with
    spent := by
      intro _ hs
      rcases hs with rfl | hs
      · exact ⟨hgiven, hgone⟩
      · exact b.spent hs }

/-! ### Handles -/

/-- A driver from outside knows the file by a handle that it has given out. -/
theorem handle_of_external (b : Books H C s) {d : Descriptor} (hd : H.installed d)
    {driver : External} (hdriver : d.record.driver = .external driver) :
    ∃ n < s.nextHandle, d.handle = .external n := by
  have hserves := b.serves hd
  rw [hdriver] at hserves
  exact hserves.exists_external

/-- The built-in driver knows it by an open directory. -/
theorem handle_of_directory (b : Books H C s) {d : Descriptor} (hd : H.installed d) {v : VfsId}
    (hdriver : d.record.driver = .directory v) :
    ∃ n < s.openDirectories.size, d.handle = .directory n ∧ s.hasVfs v = true := by
  have hserves := b.serves hd
  rw [hdriver] at hserves
  exact hserves.exists_directory

/-- No driver has given out the handle of an open directory. -/
theorem not_given_directory (b : Books H C s) (n : Nat) : ¬ H.given (.directory n) := by
  intro hg
  obtain ⟨m, -, he⟩ := b.given hg
  cases he

/-- The handle of a file in an open slot is not spent. -/
theorem unspent (b : Books H C s) {d : Descriptor} (hpos : 0 < s.opens d) :
    ¬ H.spent d.handle := by
  intro hs
  obtain ⟨-, hgone⟩ := b.spent hs
  exact Nat.ne_of_gt hpos (hgone d (b.opened hpos) rfl).1

/-! ### An open slot -/

theorem opens_pos (h : s.tableState? t = some st)
    (hslot : st.table.slots[fd]? = some (.opened entry)) : 0 < s.opens entry.descriptor :=
  Store.opens_pos_iff.mpr ⟨t, fd, entry, Option.bind_eq_some_iff.mpr ⟨st, h, hslot⟩, rfl⟩

/-- What an open slot holds has references. -/
theorem count_pos (b : Books H C s) (h : s.tableState? t = some st)
    (hslot : st.table.slots[fd]? = some (.opened entry)) :
    0 < s.references.count entry.descriptor.id := by
  have hpos := opens_pos h hslot
  rw [b.counted (b.opened hpos)]
  exact hpos

/-- A file that leaves its slot has one holder less. -/
theorem opens_left (h : s.tableState? t = some st)
    (hslot : st.table.slots[fd]? = some (.opened entry)) {table : FdTable} {new : Slot}
    (htable : table.slots = (st.table.withSlot fd new).slots) (hnew : ∀ d, new.holds d = false)
    (d : Descriptor) : (s.withTable t st table).opens d =
      s.opens d - if entry.descriptor = d then 1 else 0 := by
  have hopens := Store.opens_withSlot h hslot htable d
  rw [hnew d] at hopens
  simp only [Slot.holds, decide_eq_true_eq, Bool.false_eq_true, if_false] at hopens
  omega

/-- Another table at one place keeps the tables regular. -/
theorem regular_withTable (b : Books H C s) (h : s.tableState? t = some st) {table : FdTable}
    (hregular : table.Regular) {u : TableId} {st' : TableState}
    (hu : (s.withTable t st table).tableState? u = some st') : st'.table.Regular := by
  rw [Store.withTable, Store.tableState?_withState h] at hu
  split at hu
  · cases hu
    exact hregular
  · exact b.regular hu

/-- The file of an open slot leaves it, and loses a reference. -/
theorem leave (b : Books H C s) (h : s.tableState? t = some st)
    (hslot : st.table.slots[fd]? = some (.opened entry)) {table : FdTable} {new : Slot}
    (htable : table.slots = (st.table.withSlot fd new).slots) (hregular : table.Regular)
    (hnew : ∀ d, new.holds d = false) {C' : List Closing}
    (hclosing : ∀ u i, (if u = t ∧ i = fd then some new else s.slot? u i) = some .closing ↔
      ∃ c ∈ C', c.table = u ∧ c.fd = i)
    (hplaces : C'.Pairwise fun a b => a.table = b.table → a.fd ≠ b.fd)
    (hdistinct : C'.Pairwise fun a b => a.entry.descriptor ≠ b.entry.descriptor)
    (hC : ∀ c ∈ C', c ∈ C ∨ c.entry = entry ∧ s.opens entry.descriptor = 1)
    (hasked : s.opens entry.descriptor = 1 → H.given entry.descriptor.handle →
      H.asked entry.descriptor.handle) :
    Books H C' ((s.withTable t st table).withReferences
      (s.references.less entry.descriptor)) := by
  have hopens : ∀ d, (s.withTable t st table).opens d = _ := opens_left h hslot htable hnew
  have hle : ∀ d, (s.withTable t st table).opens d ≤ s.opens d :=
    fun d => hopens d ▸ Nat.sub_le _ _
  have hentry := b.opened (opens_pos h hslot)
  exact { b with
    regular := b.regular_withTable h hregular
    closing := by
      intro u i
      exact (iff_of_eq (congrArg (· = _) (Store.slot?_withSlot h hslot htable u i))).trans
        (hclosing u i)
    places := hplaces
    distinct := hdistinct
    idle := by
      intro c hc
      rcases hC c hc with hc | ⟨he, hone⟩
      · obtain ⟨hc, hzero⟩ := b.idle c hc
        exact ⟨hc, Nat.le_zero.mp (hzero ▸ hle _)⟩
      · rw [he]
        refine ⟨hentry, (hopens _).trans ?_⟩
        rw [if_pos rfl, hone]
    opened := fun {d} hd => b.opened (Nat.lt_of_lt_of_le hd (hle d))
    counted := by
      intro d hd
      refine (References.count_less (b.numbered hentry) (b.ids hd hentry)).trans ?_
      rw [b.counted hd]
      exact (hopens d).symm
    numbered := fun hd => (References.next_less _ _).symm ▸ b.numbered hd
    accounted := by
      intro handle hg
      rcases b.accounted hg with ha | ⟨d, hd, rfl, hpos⟩
      · exact .inl ha
      -- only the last holder of a file leaves it with none, and then a closing was asked for
      · by_cases hlast : entry.descriptor = d ∧ s.opens entry.descriptor = 1
        · obtain ⟨rfl, hone⟩ := hlast
          exact .inl (hasked hone hg)
        · refine .inr ⟨d, hd, rfl, Nat.lt_of_lt_of_eq ?_ (hopens d).symm⟩
          by_cases he : entry.descriptor = d
          · subst he
            rw [if_pos rfl]
            have hne : s.opens entry.descriptor ≠ 1 := fun hone => hlast ⟨rfl, hone⟩
            omega
          · rw [if_neg he]
            exact hpos
    spent := by
      intro handle hs
      obtain ⟨hgiven, hgone⟩ := b.spent hs
      refine ⟨hgiven, ?_⟩
      intro d hd hh
      obtain ⟨hzero, hnot⟩ := hgone d hd hh
      refine ⟨Nat.le_zero.mp (hzero ▸ hle _), ?_⟩
      intro c hc
      rcases hC c hc with hc | ⟨he, hone⟩
      · exact hnot c hc
      · rintro rfl
        rw [he] at hzero
        exact absurd (hone.symm.trans hzero) (by decide) }

/-- An open slot is not a closing one. -/
theorem place_ne (b : Books H C s) (h : s.tableState? t = some st)
    (hslot : st.table.slots[fd]? = some (.opened entry)) :
    ∀ c ∈ C, c.table = t → c.fd ≠ fd := by
  rintro c hc rfl rfl
  have hclosing := (b.closing c.table c.fd).mpr ⟨c, hc, rfl, rfl⟩
  rw [Store.slot?, h, Option.bind_some, hslot] at hclosing
  cases hclosing

/-- **An open slot is given up**, and its file loses a reference.  If that was the last, a driver
from outside has been asked to close the handle. -/
theorem letGo (b : Books H C s) (h : s.tableState? t = some st)
    (hslot : st.table.slots[fd]? = some (.opened entry))
    (hasked : s.opens entry.descriptor = 1 → H.given entry.descriptor.handle →
      H.asked entry.descriptor.handle) :
    Books H C ((s.withTable t st (st.table.vacated fd)).withReferences
      (s.references.less entry.descriptor)) := by
  refine b.leave h hslot (st.table.vacated_slots fd)
    ((b.regular h).vacated hslot Slot.noConfusion) (fun _ => rfl)
    (fun u i => ?_) b.places b.distinct (fun c hc => .inl hc) hasked
  split
  · rename_i hui
    obtain ⟨rfl, rfl⟩ := hui
    refine iff_of_false (by simp) ?_
    rintro ⟨c, hc, ht, hfd⟩
    exact b.place_ne h hslot c hc ht hfd
  · exact b.closing u i

/-- **The last slot of a file is given up**, and a driver is asked to close the file, whatever it
answers: nothing holds the file any more, in a slot or to close it. -/
theorem discard (b : Books H C s) (h : s.tableState? t = some st)
    (hslot : st.table.slots[fd]? = some (.opened entry)) (hlast : s.opens entry.descriptor = 1)
    (hgiven : ∃ n < s.nextHandle, entry.descriptor.handle = .external n) :
    Books ((H.ask entry.descriptor.handle).spend entry.descriptor.handle) C
      ((s.withTable t st (st.table.vacated fd)).withReferences
        (s.references.less entry.descriptor)) := by
  have hinstalled := b.opened (opens_pos h hslot)
  refine ((b.ask entry.descriptor.handle).letGo h hslot fun _ _ => .inl rfl).spend hgiven ?_
  intro d hd hh
  rw [b.handles hd hinstalled hh]
  refine ⟨?_, ?_⟩
  · refine (opens_left h hslot (st.table.vacated_slots fd) (fun _ => rfl) _).trans ?_
    rw [if_pos rfl, hlast]
  · intro c hc he
    have hidle := (b.idle c hc).2
    rw [he, hlast] at hidle
    cases hidle

/-- **The last slot of a file is taken out**, and a driver is asked to close the file. -/
theorem seize (b : Books H C s) (h : s.tableState? t = some st)
    (hslot : st.table.slots[fd]? = some (.opened entry)) (hlast : s.opens entry.descriptor = 1)
    (hasked : H.given entry.descriptor.handle → H.asked entry.descriptor.handle) :
    Books H (⟨t, fd, entry⟩ :: C) ((s.withTable t st (st.table.withSlot fd .closing)).withReferences
      (s.references.less entry.descriptor)) := by
  refine b.leave h hslot rfl ((b.regular h).withSlot hslot Slot.noConfusion Slot.noConfusion)
    (fun _ => rfl) (fun u i => ?_) (List.pairwise_cons.mpr ⟨fun c hc ht he => ?_, b.places⟩)
    (List.pairwise_cons.mpr ⟨fun c hc he => ?_, b.distinct⟩) (fun c hc => ?_) fun _ => hasked
  · split
    · rename_i hui
      exact iff_of_true rfl ⟨_, List.mem_cons_self, hui.1.symm, hui.2.symm⟩
    · rename_i hui
      rw [b.closing u i]
      simp only [List.mem_cons, exists_eq_or_imp]
      refine ⟨.inr, fun hc => hc.resolve_left fun he => hui ⟨he.1.symm, he.2.symm⟩⟩
  · exact b.place_ne h hslot c hc ht.symm he.symm
  · have hzero := (b.idle c hc).2
    rw [← he, hlast] at hzero
    cases hzero
  · rcases List.mem_cons.mp hc with rfl | hc
    · exact .inr ⟨rfl, hlast⟩
    · exact .inl hc

/-! ### A closing slot -/

/-- A file that is being closed has its slot. -/
theorem exists_closing {c : Closing} (b : Books H (c :: C) s) : ∃ st,
    s.tableState? c.table = some st ∧ st.table.slots[c.fd]? = some .closing :=
  Option.bind_eq_some_iff.mp ((b.closing c.table c.fd).mpr ⟨c, List.mem_cons_self, rfl, rfl⟩)

/-- Where the first closing slot becomes another, the others stay. -/
theorem closing_tail {c : Closing} (b : Books H (c :: C) s) {new : Slot} (hnew : new ≠ .closing)
    (u : TableId) (i : Nat) :
    (if u = c.table ∧ i = c.fd then some new else s.slot? u i) = some .closing ↔
      ∃ c ∈ C, c.table = u ∧ c.fd = i := by
  split
  · rename_i hui
    obtain ⟨rfl, rfl⟩ := hui
    refine iff_of_false (fun he => hnew (Option.some.inj he)) ?_
    rintro ⟨c', hc, ht, hfd⟩
    exact (List.pairwise_cons.mp b.places).1 c' hc ht.symm hfd.symm
  · rename_i hui
    rw [b.closing u i]
    simp only [List.mem_cons, exists_eq_or_imp]
    exact ⟨fun hc => hc.resolve_left fun he => hui ⟨he.1.symm, he.2.symm⟩, .inr⟩

/-- The slots of other files do not change with a closing slot. -/
theorem opens_closing (h : s.tableState? t = some st)
    (hslot : st.table.slots[fd]? = some .closing) {table : FdTable} {new : Slot}
    (htable : table.slots = (st.table.withSlot fd new).slots) (d : Descriptor) :
    (s.withTable t st table).opens d = s.opens d + if new.holds d then 1 else 0 := by
  have hopens := Store.opens_withSlot h hslot htable d
  simpa [Slot.holds] using hopens

/-- **The driver has closed the file**: its slot is given up. -/
theorem finish {c : Closing} (b : Books H (c :: C) s) (h : s.tableState? c.table = some st)
    (hslot : st.table.slots[c.fd]? = some .closing) :
    Books H C (s.withTable c.table st (st.table.vacated c.fd)) := by
  have hopens : ∀ d, (s.withTable c.table st (st.table.vacated c.fd)).opens d = s.opens d :=
    opens_closing h hslot (st.table.vacated_slots c.fd)
  exact { b with
    regular := b.regular_withTable h ((b.regular h).vacated hslot Slot.noConfusion)
    closing := by
      intro u i
      rw [Store.slot?_withSlot h hslot (st.table.vacated_slots c.fd)]
      exact b.closing_tail Slot.noConfusion u i
    places := b.places.tail
    distinct := b.distinct.tail
    idle := by
      intro c' hc
      rw [hopens]
      exact b.idle c' (List.mem_cons_of_mem _ hc)
    opened := fun hd => b.opened (hopens _ ▸ hd)
    counted := fun hd => (b.counted hd).trans (hopens _).symm
    accounted := b.accounted_mono fun d => Nat.le_of_eq (hopens d).symm
    spent := b.spent_mono (fun _ => List.mem_cons_of_mem _)
      fun d hzero _ => (hopens d).trans hzero }

/-- **The driver refuses to close the file**: it is back in its slot, with one reference. -/
theorem restore {c : Closing} (b : Books H (c :: C) s) (h : s.tableState? c.table = some st)
    (hslot : st.table.slots[c.fd]? = some .closing) :
    Books H C ((s.withTable c.table st (st.table.withSlot c.fd (.opened c.entry))).withReferences
      (s.references.more c.entry.descriptor)) := by
  have hentry := (b.idle c List.mem_cons_self).1
  have hopens : ∀ d, (s.withTable c.table st (st.table.withSlot c.fd (.opened c.entry))).opens d =
      s.opens d + if c.entry.descriptor = d then 1 else 0 := by
    intro d
    rw [opens_closing h hslot rfl]
    simp [Slot.holds]
  have hne : ∀ c' ∈ C, c.entry.descriptor ≠ c'.entry.descriptor :=
    (List.pairwise_cons.mp b.distinct).1
  exact { b with
    regular := b.regular_withTable h
      ((b.regular h).withSlot hslot Slot.noConfusion Slot.noConfusion)
    closing := by
      intro u i
      show (s.withTable c.table st _).slot? u i = _ ↔ _
      rw [Store.slot?_withSlot h hslot rfl]
      exact b.closing_tail Slot.noConfusion u i
    places := b.places.tail
    distinct := b.distinct.tail
    idle := by
      intro c' hc
      obtain ⟨hi, hzero⟩ := b.idle c' (List.mem_cons_of_mem _ hc)
      refine ⟨hi, (hopens _).trans ?_⟩
      rw [if_neg (hne c' hc), hzero]
    opened := by
      intro d hd
      have hpos : 0 < s.opens d + if c.entry.descriptor = d then 1 else 0 := hopens d ▸ hd
      split at hpos
      · rename_i he
        exact he ▸ hentry
      · exact b.opened hpos
    counted := by
      intro d hd
      refine (References.count_more (b.numbered hentry) (b.ids hd hentry)).trans ?_
      rw [b.counted hd]
      exact (hopens d).symm
    numbered := fun hd => (References.next_more _ _).symm ▸ b.numbered hd
    accounted := b.accounted_mono fun d => (hopens d).symm ▸ Nat.le_add_right _ _
    spent := by
      refine b.spent_mono (fun _ => List.mem_cons_of_mem _) ?_
      intro d hzero hnot
      refine (hopens d).trans ?_
      rw [if_neg (hnot c List.mem_cons_self), hzero] }

/-! ### A new file -/

/-- The descriptor is new, and has one reference. -/
structure Fresh (H : History) (s : Store) (d : Descriptor) : Prop where
  id : ∀ {d'}, H.installed d' → d'.id ≠ d.id
  handle : ∀ {d'}, H.installed d' → d'.handle ≠ d.handle
  unspent : ¬ H.spent d.handle
  count : s.references.count d.id = 1
  serves : s.Serves d.record.driver d.handle

theorem Fresh.not_installed {d : Descriptor} (f : Fresh H s d) : ¬ H.installed d :=
  fun h => f.id h rfl

/-- A new handle, which is to be closed unless it comes into a slot. -/
theorem newHandle (b : Books H C s) :
    Books ((H.give (.external s.nextHandle)).ask (.external s.nextHandle)) C
      { s with nextHandle := s.nextHandle + 1 } :=
  { b with
    serves := fun hd =>
      (b.serves hd).mono (Nat.le_succ _) (Nat.le_refl _) (Nat.le_refl _)
    given := by
      intro _ hg
      rcases hg with rfl | hg
      · exact ⟨_, Nat.lt_succ_self _, rfl⟩
      · obtain ⟨n, hn, he⟩ := b.given hg
        exact ⟨n, Nat.lt_succ_of_lt hn, he⟩
    accounted := by
      intro _ hg
      rcases hg with rfl | hg
      · exact .inl (.inl rfl)
      · exact (b.accounted hg).imp_left .inr
    spent := by
      intro _ hs
      obtain ⟨⟨n, hn, he⟩, hgone⟩ := b.spent hs
      exact ⟨⟨n, Nat.lt_succ_of_lt hn, he⟩, hgone⟩ }

/-- A new descriptor, with one reference. -/
theorem newDescriptor (b : Books H C s) : Books H C (s.withReferences s.references.create) := by
  refine b.congr rfl (fun hd => ?_) ?_ rfl (Nat.le_refl _) (Nat.le_refl _)
  · exact (References.count_create _ _).trans (if_neg (Nat.ne_of_lt (b.numbered hd)))
  · exact Nat.le_of_lt (Nat.lt_of_lt_of_eq (Nat.lt_succ_self _) (References.next_create _).symm)

/-- A descriptor that was just made is fresh, if its handle is. -/
theorem fresh (b : Books H C s) {d : Descriptor} (hid : d.id = s.references.next)
    (hhandle : ∀ {d'}, H.installed d' → d'.handle ≠ d.handle) (hspent : ¬ H.spent d.handle)
    (hserves : s.Serves d.record.driver d.handle) :
    Fresh H (s.withReferences s.references.create) d where
  id hd := hid.symm ▸ Nat.ne_of_lt (b.numbered hd)
  handle := hhandle
  unspent := hspent
  count := (References.count_create _ _).trans (if_pos hid)
  serves := hserves

/-- **A new file comes into a slot** that was free. -/
theorem install (b : Books H C s) (h : s.tableState? t = some st) {rest : List Nat}
    (hfree : st.table.free = fd :: rest) (entry : FdEntry) (f : Fresh H s entry.descriptor) :
    Books (H.install entry.descriptor) C (s.withTable t st (st.table.installed fd entry)) := by
  have hslot : st.table.slots[fd]? = some .free :=
    ((b.regular h).free fd).mp (hfree ▸ List.mem_cons_self)
  have hzero : s.opens entry.descriptor = 0 :=
    Nat.eq_zero_of_not_pos fun hpos => f.not_installed (b.opened hpos)
  have hopens : ∀ d, (s.withTable t st (st.table.installed fd entry)).opens d =
      s.opens d + if entry.descriptor = d then 1 else 0 := by
    intro d
    have hopens := Store.opens_withSlot h hslot (st.table.installed_slots fd entry) d
    simpa [Slot.holds] using hopens
  -- the file is a new one, so files that were in a slot before have the holders they had
  have hother : ∀ {d}, H.installed d → (s.withTable t st (st.table.installed fd entry)).opens d =
      s.opens d := fun {d} hd => by
    rw [hopens, if_neg fun he : entry.descriptor = d => f.not_installed (he ▸ hd), Nat.add_zero]
  exact { b with
    regular := b.regular_withTable h ((b.regular h).installed hfree entry)
    closing := by
      intro u i
      rw [← b.closing u i, Store.slot?_withSlot h hslot (st.table.installed_slots fd entry)]
      split
      · rename_i hui
        rw [Store.slot?, hui.1, hui.2, h, Option.bind_some, hslot]
        simp
      · rfl
    idle := by
      intro c hc
      obtain ⟨hi, hidle⟩ := b.idle c hc
      exact ⟨.inr hi, (hother hi).trans hidle⟩
    opened := by
      intro d hd
      by_cases he : d = entry.descriptor
      · exact .inl he
      · rw [hopens, if_neg (Ne.symm he)] at hd
        exact .inr (b.opened hd)
    counted := by
      rintro d (rfl | hd)
      · rw [hopens, if_pos rfl, hzero]
        exact f.count
      · exact (b.counted hd).trans (hother hd).symm
    numbered := by
      rintro d (rfl | hd)
      · exact References.lt_next (Nat.lt_of_lt_of_eq Nat.one_pos f.count.symm)
      · exact b.numbered hd
    serves := by
      rintro d (rfl | hd)
      · exact f.serves
      · exact b.serves hd
    ids := by
      rintro a a' (rfl | ha) (rfl | ha') he
      · rfl
      · exact absurd he.symm (f.id ha')
      · exact absurd he (f.id ha)
      · exact b.ids ha ha' he
    handles := by
      rintro a a' (rfl | ha) (rfl | ha') he
      · rfl
      · exact absurd he.symm (f.handle ha')
      · exact absurd he (f.handle ha)
      · exact b.handles ha ha' he
    accounted := by
      intro _ hg
      refine (b.accounted hg).imp_right ?_
      rintro ⟨d, hd, hh, hpos⟩
      exact ⟨d, .inr hd, hh, (hother hd).symm ▸ hpos⟩
    spent := by
      intro handle hs
      obtain ⟨hgiven, hgone⟩ := b.spent hs
      refine ⟨hgiven, ?_⟩
      rintro d (rfl | hd) hh
      · exact absurd (hh ▸ hs) f.unspent
      · obtain ⟨hidle, hnot⟩ := hgone d hd hh
        exact ⟨(hother hd).trans hidle, hnot⟩ }

/-- **A new file under a new handle comes into a slot**, which then accounts for the handle. -/
theorem place {handle : Handle} (b : Books (H.ask handle) C s) (h : s.tableState? t = some st)
    {rest : List Nat} (hfree : st.table.free = fd :: rest) (entry : FdEntry)
    (f : Fresh (H.ask handle) s entry.descriptor) (hhandle : entry.descriptor.handle = handle) :
    Books (H.install entry.descriptor) C (s.withTable t st (st.table.installed fd entry)) := by
  have hslot : st.table.slots[fd]? = some .free :=
    ((b.regular h).free fd).mp (hfree ▸ List.mem_cons_self)
  have hopened : (st.table.installed fd entry).slots[fd]? = some (.opened entry) := by
    rw [FdTable.installed_slots, FdTable.slots_withSlot hslot, if_pos rfl]
  have hstate := Store.tableState?_withState_self h
    (some { st with table := st.table.installed fd entry })
  have hpos := opens_pos hstate hopened
  have b' : Books ((H.install entry.descriptor).ask handle) C _ := b.install h hfree entry f
  exact b'.unask fun _ => ⟨entry.descriptor, .inl rfl, hhandle, hpos⟩

/-! ### Tables that come and go -/

/-- **A new table** that holds only what other tables hold, with the references for it. -/
theorem newTable (b : Books H C s) {table : FdTable} (hregular : table.Regular)
    (hclosing : ∀ fd : Nat, table.slots[fd]? ≠ some .closing) {r : References}
    (hheld : ∀ d, 0 < table.holders d → 0 < s.opens d)
    (hcount : ∀ {d}, H.installed d → r.count d.id = s.references.count d.id + table.holders d)
    (hnext : r.next = s.references.next) :
    Books H C ((s.withNewTable table).withReferences r) := by
  have hopens : ∀ d, (s.withNewTable table).opens d = s.opens d + table.holders d :=
    Store.opens_withNewTable s table
  -- the new table holds nothing that was not held before
  have hzero : ∀ {d}, s.opens d = 0 → (s.withNewTable table).opens d = 0 := fun {d} hd => by
    have hnone : ¬ 0 < table.holders d := by
      intro hpos
      have hheld := hheld d hpos
      omega
    rw [hopens]
    omega
  exact { b with
    regular := by
      intro u st hu
      have hst := (Store.tableState?_withNewTable s table u).symm.trans hu
      split at hst
      · cases hst
        exact hregular
      · exact b.regular hst
    closing := by
      intro u i
      rw [← b.closing u i]
      show (s.withNewTable table).slot? u i = _ ↔ _
      rw [Store.slot?, Store.slot?, Store.tableState?_withNewTable]
      split
      · rename_i hu
        refine iff_of_false (hclosing i) ?_
        intro hs
        obtain ⟨st, hst, -⟩ := Option.bind_eq_some_iff.mp hs
        exact Nat.ne_of_lt (Store.lt_size_of_tableState? hst) hu
      · rfl
    idle := by
      intro c hc
      obtain ⟨hi, hidle⟩ := b.idle c hc
      exact ⟨hi, hzero hidle⟩
    opened := by
      intro d hd
      have hpos : 0 < s.opens d + table.holders d := hopens d ▸ hd
      refine b.opened (Nat.pos_of_ne_zero ?_)
      intro hidle
      rw [hidle, Nat.zero_add] at hpos
      exact Nat.ne_of_gt (hheld d hpos) hidle
    counted := by
      intro d hd
      refine (hcount hd).trans ?_
      rw [b.counted hd]
      exact (hopens d).symm
    numbered := fun hd => Nat.lt_of_lt_of_eq (b.numbered hd) hnext.symm
    accounted := b.accounted_mono fun d => (hopens d).symm ▸ Nat.le_add_right _ _
    spent := b.spent_mono (fun _ hc => hc) fun _ hidle _ => hzero hidle }

/-- A table out of reach is in the books like any other. -/
theorem retire (b : Books H C s) (h : s.tableState? t = some st) (reachable : Bool) :
    Books H C (s.withState t (some ⟨st.table, reachable⟩)) := by
  have hstate := Store.tableState?_withState h (some ⟨st.table, reachable⟩)
  refine b.reshape (fun {u st'} hu => ?_) (fun u i => ?_) (fun d => ?_) (fun _ => rfl)
    (Nat.le_refl _) rfl fun _ _ hs => hs
  · rw [hstate] at hu
    split at hu
    · have hregular := b.regular h
      rw [← Option.some.inj hu]
      exact hregular
    · exact b.regular hu
  · rw [Store.slot?, Store.slot?, hstate]
    split
    · rename_i hu
      rw [hu, h]
      rfl
    · rfl
  · have hopens := Store.opens_withState h (some ⟨st.table, reachable⟩) d
    simp only [Option.map_some, Option.getD_some] at hopens
    omega

/-- A table whose slots are all free may be forgotten. -/
theorem forget (b : Books H C s) (h : s.tableState? t = some st)
    (hfree : ∀ (fd : Nat) slot, st.table.slots[fd]? = some slot → slot = .free) :
    Books H C (s.withState t none) := by
  have hstate := Store.tableState?_withState h none
  refine b.reshape (fun {u st'} hu => ?_) (fun u i => ?_) (fun d => ?_) (fun _ => rfl)
    (Nat.le_refl _) rfl fun _ _ hs => hs
  · rw [hstate] at hu
    split at hu
    · cases hu
    · exact b.regular hu
  · rw [Store.slot?, Store.slot?, hstate]
    split
    · rename_i hu
      rw [hu, h]
      exact iff_of_false (by simp) fun hs => Slot.noConfusion (hfree i _ hs)
    · rfl
  · have hopens := Store.opens_withState h none d
    have hnone : st.table.holders d = 0 := Nat.eq_zero_of_not_pos fun hpos => by
      obtain ⟨fd, entry, hslot, -⟩ := FdTable.holders_pos_iff.mp hpos
      exact Slot.noConfusion (hfree fd _ hslot)
    rw [hnone] at hopens
    simpa using hopens

end Books

end VirtualFs
