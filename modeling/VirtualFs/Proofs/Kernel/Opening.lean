import VirtualFs.Proofs.Kernel.Instances
import VirtualFs.Proofs.Kernel.Replies
import VirtualFs.Proofs.Mount.Serving

/-!
# Opening a file

A call that opens a file asks at most one driver to open it: the one of the deepest mount on the way
along the path, which is given what follows its mount point.  If there is none, and the path is that
of a node, the driver of the file system's own nodes opens the node.  Once a driver has opened the
file, it comes into a free slot, or its driver is asked to close it again.

* `OnMount`, `OffMounts`, `ServedBy`: who is to open a file, and what it is given of the path.
* `OpenRequest.server_cases`: the mount graph knows who that is.
* `Opening`: how far such a call has come.
* `Happens.opens`, `Opening.next`: the first step of such a call, and every answer to it.
* `files_opened`: every opening of every run.
-/

namespace VirtualFs

/-- A request to open a file. -/
structure OpenRequest where
  vfs : VfsId
  table : TableId
  path : Path
  flags : OpenFlags
  mode : UInt32

namespace OpenRequest

/-- The call that makes the request. -/
def call (q : OpenRequest) : Call :=
  .open q.vfs q.table q.path q.flags q.mode

/-- What a slot holds for the file: a descriptor with the clean path, and the flags and the mode of
the request. -/
def entry (q : OpenRequest) (id : Nat) (record : Record) (handle : Handle) : FdEntry :=
  ⟨⟨id, Path.clean q.path, handle, record⟩, q.flags, q.mode⟩

/-! ### Who opens the file -/

/-- The path is absolute, and the deepest mount on the way along its clean form is that of the
record.  In the clean form, `rest` is what follows the mount point. -/
structure OnMount (q : OpenRequest) (i : Instance) (record : Record) (rest : Path) : Prop where
  absolute : q.path.head? = some Path.delimiter
  serves : ∃ front, i.graph.Serves (Path.segments q.path) front record ∧
    Path.Splits (Path.clean q.path) (Path.ofSegments front) rest

/-- The path is absolute, and no mount is on the way along it. -/
structure OffMounts (q : OpenRequest) (i : Instance) : Prop where
  absolute : q.path.head? = some Path.delimiter
  none : ∀ front record, front <+: Path.segments q.path → ¬ i.graph.Holds front record

/-- **Who is to open the file**, and the path that it is given. -/
inductive ServedBy (q : OpenRequest) (i : Instance) : Record → Path → Prop
  | mount {record : Record} {rest : Path} (h : q.OnMount i record rest) : ServedBy q i record rest
  /-- The path is that of a node, which is opened by its clean path. -/
  | node (h : q.OffMounts i) (hnode : i.graph.contains (Path.clean q.path) = true)
      (hown : i.directories.driver = .directory q.vfs) :
      ServedBy q i i.directories (Path.clean q.path)

theorem ServedBy.absolute {q : OpenRequest} {i : Instance} {record : Record} {rest : Path}
    (h : q.ServedBy i record rest) : q.path.head? = some Path.delimiter := by
  cases h with
  | mount h => exact h.absolute
  | node h => exact h.absolute

end OpenRequest

/-- Slot number `fd` of the table was free, and now holds the entry, whose descriptor is a new one
with one reference.  All other slots are as they were, and so are the references to all other
descriptors. -/
structure Store.Installs (s : Store) (t : TableId) (fd : Nat) (entry : FdEntry) (s' : Store) :
    Prop where
  free : s.slot? t fd = some .free
  slots : ∀ (u : TableId) (n : Nat),
    s'.slot? u n = if u = t ∧ n = fd then some (.opened entry) else s.slot? u n
  fresh : entry.descriptor.id = s.references.next
  counts : ∀ id, s'.references.count id =
    if id = entry.descriptor.id then 1 else s.references.count id

namespace OpenRequest

variable {q : OpenRequest} {i : Instance} {clean : Path}

/-- **Who is to open the file**, if anyone is. -/
theorem server_cases (hregular : i.graph.Regular) (hown : i.directories.driver = .directory q.vfs)
    (hclean : Path.absolute? q.path = some clean) :
    (∃ record rest, i.server clean = .ok (record, rest) ∧ q.ServedBy i record rest) ∨
      i.server clean = .error .notFound ∧ q.OffMounts i ∧ i.graph.contains clean = false := by
  obtain ⟨habs, rfl⟩ := Path.head?_of_absolute? hclean
  have hsegments := Path.absolute?_eq_some hclean
  have hs : ∀ s ∈ Path.segments q.path, s ≠ [] ∧ Path.delimiter ∉ s := fun _ => Path.mem_segments
  have hresolves := hregular.resolves hs
  rw [← hsegments] at hresolves
  rw [Instance.server]
  generalize i.graph.resolve (Path.clean q.path) = answer at hresolves
  cases hresolves with
  | driver hserves hsplits =>
    rw [← hsegments] at hsplits
    exact .inl ⟨_, _, rfl, .mount ⟨habs, _, hserves, hsplits⟩⟩
  | node hnone hnode => exact .inl ⟨_, _, rfl, .node ⟨habs, hnone⟩ (hsegments ▸ hnode) hown⟩
  | notFound hnone hmissing => exact .inr ⟨rfl, ⟨habs, hnone⟩, hsegments ▸ hmissing⟩

/-- A driver that serves the path is the one that is to open the file. -/
theorem served_of_directs {s : Store} {record : Record} {rest : Path}
    (hregular : i.graph.Regular) (hown : i.directories.driver = .directory q.vfs)
    (hi : s.instances[q.vfs]? = some i) (h : s.Directs q.vfs q.path clean record rest) :
    clean = Path.clean q.path ∧ q.ServedBy i record rest := by
  obtain ⟨hclean, j, hj, hserver⟩ := h
  cases hi.symm.trans hj
  rcases server_cases hregular hown hclean with ⟨_, _, hserver', hserved⟩ | ⟨hnone, -⟩
  · cases hserver.symm.trans hserver'
    exact ⟨(Path.head?_of_absolute? hclean).2, hserved⟩
  · cases hserver.symm.trans hnone

/-- Where nobody serves the path, there is neither a mount nor a node. -/
theorem offMounts_of_error {e : Error} (hregular : i.graph.Regular)
    (hown : i.directories.driver = .directory q.vfs) (hclean : Path.absolute? q.path = some clean)
    (h : i.server clean = .error e) :
    e = .notFound ∧ q.OffMounts i ∧ i.graph.contains (Path.clean q.path) = false := by
  rcases server_cases hregular hown hclean with ⟨_, _, hserver, -⟩ | ⟨hnone, hoff, hmissing⟩
  · cases h.symm.trans hserver
  · cases h.symm.trans hnone
    cases (Path.head?_of_absolute? hclean).2
    exact ⟨rfl, hoff, hmissing⟩

/-- A path that its driver does not list is on the way of a mount: a node of the file system itself
would be listed. -/
theorem ServedBy.onMount {s : Store} {record : Record} {rest : Path} {w : VfsId} {j : Instance}
    (h : q.ServedBy i record rest) (hi : s.instances[q.vfs]? = some i)
    (hdriver : record.driver = .directory w) (hj : s.instances[w]? = some j)
    (hmissing : j.graph.contains rest = false) : q.OnMount i record rest := by
  cases h with
  | mount h => exact h
  | node hoff hnode hown =>
    cases hown.symm.trans hdriver
    cases hi.symm.trans hj
    cases hnode.symm.trans hmissing

end OpenRequest

/-! ### The steps -/

namespace OpenRequest

/-- **What comes of a file that a driver has opened.** -/
inductive Settles (q : OpenRequest) (now : Moment) (record : Record) (handle : Handle) : Prop
  /-- It takes a free slot. -/
  | installs {fd : Nat} (hreturned : now.outcome = .returned (.ok (.fd fd)))
      (hinstalls : now.before.kernel.store.Installs q.table fd
        (q.entry now.before.kernel.store.references.next record handle) now.after.kernel.store) :
      Settles q now record handle
  /-- There is no slot for it, and its driver has nothing to close. -/
  | unplaced {w : VfsId} (hdriver : record.driver = .directory w)
      (hreturned : now.outcome = .returned (.error .tooManyOpenFiles))
      (htables : now.after.kernel.store.tables = now.before.kernel.store.tables) :
      Settles q now record handle
  /-- There is no slot for it, and its driver is asked to close it. -/
  | abandons {driver : External} (hdriver : record.driver = .external driver)
      (hwaits : now.Waits (.close driver handle) (.abandoning q.table (Path.clean q.path)))
      (htables : now.after.kernel.store.tables = now.before.kernel.store.tables) :
      Settles q now record handle

end OpenRequest

/-- **How far a call to open a file has come**: what has been asked for it and answered, and the
step that comes next. -/
inductive Opening (q : OpenRequest) (i : Instance) : List (HookCall × Reply) → Moment → Prop
  /-- The path is not absolute. -/
  | invalid {now : Moment} (hrelative : q.path.head? ≠ some Path.delimiter)
      (hreturned : now.outcome = .returned (.error .invalidArgument))
      (hsame : now.after.kernel.store = now.before.kernel.store) : Opening q i [] now
  /-- There is neither a mount on the way along the path nor a node. -/
  | missing {now : Moment} (h : q.OffMounts i)
      (hmissing : i.graph.contains (Path.clean q.path) = false)
      (hreturned : now.outcome = .returned (.error .notFound))
      (hsame : now.after.kernel.store = now.before.kernel.store) : Opening q i [] now
  /-- The mount is of the nodes of a file system that has none at this path. -/
  | unlisted {record : Record} {rest : Path} {w : VfsId} {j : Instance} {now : Moment}
      (h : q.OnMount i record rest) (hdriver : record.driver = .directory w)
      (hj : now.before.kernel.store.instances[w]? = some j)
      (hmissing : j.graph.contains rest = false)
      (hreturned : now.outcome = .returned (.error .notFound))
      (hsame : now.after.kernel.store = now.before.kernel.store) : Opening q i [] now
  /-- A node is opened as a directory. -/
  | lists {record : Record} {rest : Path} {w : VfsId} {now : Moment} (h : q.ServedBy i record rest)
      (hdriver : record.driver = .directory w)
      (hopen : now.after.kernel.store.openDirectories =
        now.before.kernel.store.openDirectories.push ⟨rest, .start⟩)
      (hsettles : q.Settles now record (.directory now.before.kernel.store.openDirectories.size)) :
      Opening q i [] now
  /-- A driver from outside is asked. -/
  | asks {record : Record} {rest : Path} {driver : External} {now : Moment}
      (h : q.ServedBy i record rest) (hdriver : record.driver = .external driver)
      (hwaits : now.Waits (.open driver rest q.flags q.mode)
        (.opening q.table (Path.clean q.path) record q.flags q.mode))
      (hsame : now.after.kernel.store = now.before.kernel.store) : Opening q i [] now
  /-- The driver has not opened the file. -/
  | fails {record : Record} {rest : Path} {driver : External} {e : Error} {now : Moment}
      (h : q.ServedBy i record rest) (hdriver : record.driver = .external driver)
      (hreturned : now.outcome = .returned (.error e))
      (hsame : now.after.kernel.store = now.before.kernel.store) :
      Opening q i [(.open driver rest q.flags q.mode, .failed e)] now
  /-- The driver has opened the file, and knows it by a new handle. -/
  | opens {record : Record} {rest : Path} {driver : External} {now : Moment}
      (h : q.ServedBy i record rest) (hdriver : record.driver = .external driver)
      (hsettles : q.Settles now record (.external now.before.kernel.store.nextHandle)) :
      Opening q i [(.open driver rest q.flags q.mode, .opened)] now
  /-- The driver has been asked to close the file again, and has answered anything. -/
  | abandoned {record : Record} {rest : Path} {driver : External} {handle : Handle} {reply : Reply}
      {now : Moment} (h : q.ServedBy i record rest) (hdriver : record.driver = .external driver)
      (hreturned : now.outcome = .returned (.error .tooManyOpenFiles))
      (hsame : now.after.kernel.store = now.before.kernel.store) :
      Opening q i [(.open driver rest q.flags q.mode, .opened), (.close driver handle, reply)] now

section

variable {past : List Moment} {start turn now : Moment} {q : OpenRequest} {i : Instance}
  {record : Record} {handle : Handle} {job : Job} {p : Progress} {s₁ : Store}

/-- A file that is open takes a slot, or is to be closed again. -/
theorem Action.Places.settles
    (h : Action.Places s₁ q.table (q.entry now.before.kernel.store.references.next record handle) p
      now.after.kernel.store)
    (c : Machine.Carried now.before now.event now.outcome now.after job .direct p)
    (htables : s₁.tables = now.before.kernel.store.tables)
    (hreferences : s₁.references = now.before.kernel.store.references) :
    q.Settles now record handle := by
  generalize hs : now.after.kernel.store = s' at h
  cases h with
  | @placed st fd ht hslot =>
    refine .installs c.ends.of_finished.1 ⟨?_, fun u n => ?_, rfl, fun id => ?_⟩
    · rw [← Store.slot?_congr htables, Store.slot?, ht]
      exact hslot
    · rw [hs, Store.slot?_withSlot (s := s₁.withReferences s₁.references.create) ht hslot
        (FdTable.installed_slots _ _ _), ← Store.slot?_congr htables]
      rfl
    · rw [hs, ← hreferences]
      exact References.count_create _ _
  | refused hdriver => exact .unplaced hdriver c.ends.of_finished.1 (hs ▸ htables)
  | abandoned hdriver =>
    exact .abandons hdriver ⟨c.ends.of_waiting.1, c.ends.of_waiting.2⟩ (hs ▸ htables)

/-- Putting a file into a slot opens no directory. -/
theorem Action.Places.openDirectories_eq {t : TableId} {entry : FdEntry} {s' : Store}
    (h : Action.Places s₁ t entry p s') : s'.openDirectories = s₁.openDirectories := by
  cases h <;> rfl

/-- **The first step** asks the driver that serves the path, or opens a node. -/
theorem Happens.opens (h : Happens past start) (he : start.event = .call q.call)
    (hi : start.before.kernel.store.instances[q.vfs]? = some i)
    (ht : start.before.kernel.store.isReachable q.table = true)
    (hown : i.directories.driver = .directory q.vfs) : Opening q i [] start := by
  obtain ⟨H, r⟩ := h.before
  obtain ⟨hlt, -⟩ := Array.getElem?_eq_some_iff.mp hi
  obtain ⟨p, c⟩ := h.carries he (Bool.and_eq_true_iff.mpr ⟨decide_eq_true hlt, ht⟩)
  have hregular := (r.sound.served.graphs hi).regular
  have hbegins := c.ensures (Action.ensures_opening q.vfs q.table q.path q.flags q.mode)
  generalize hs : start.after.kernel.store = s' at hbegins
  cases hbegins with
  | invalid hrelative =>
    exact .invalid (Path.absolute?_eq_none.mp hrelative) c.ends.of_finished.1 hs
  | missing hclean hj hnone =>
    cases hi.symm.trans hj
    obtain ⟨rfl, hoff, hmissing⟩ := OpenRequest.offMounts_of_error hregular hown hclean hnone
    exact .missing hoff hmissing c.ends.of_finished.1 hs
  | asks hdirects hdriver =>
    obtain ⟨rfl, hserved⟩ := OpenRequest.served_of_directs hregular hown hi hdirects
    exact .asks hserved hdriver ⟨c.ends.of_waiting.1, c.ends.of_waiting.2⟩ hs
  | unlisted hdirects hdriver hj hmissing =>
    obtain ⟨-, hserved⟩ := OpenRequest.served_of_directs hregular hown hi hdirects
    exact .unlisted (hserved.onMount hi hdriver hj hmissing) hdriver hj hmissing
      c.ends.of_finished.1 hs
  | lists hdirects hdriver hj hcontains hplaces =>
    obtain ⟨rfl, hserved⟩ := OpenRequest.served_of_directs hregular hown hi hdirects
    subst hs
    exact .lists hserved hdriver hplaces.openDirectories_eq (hplaces.settles c rfl rfl)

namespace Opening

/-- **The call is refused for its path**, with nobody asked, exactly if the path is not absolute. -/
theorem invalid_iff (h : Opening q i [] now) :
    now.outcome = .returned (.error .invalidArgument) ↔ q.path.head? ≠ some Path.delimiter := by
  cases h with
  | invalid hrelative hreturned => simp [hrelative, hreturned]
  | missing h _ hreturned => simp [h.absolute, hreturned]
  | unlisted h _ _ _ hreturned => simp [h.absolute, hreturned]
  | lists h hdriver _ hsettles =>
    cases hsettles with
    | installs hreturned => simp [h.absolute, hreturned]
    | unplaced _ hreturned => simp [h.absolute, hreturned]
    | abandons hexternal => cases hdriver.symm.trans hexternal
  | asks h _ hwaits => simp [h.absolute, hwaits.asked]

/-- **Every answer** takes the call further. -/
theorem next {dialogue : List (HookCall × Reply)} {question : HookCall} {reply : Reply}
    (ho : Opening q i dialogue turn) (hc : turn.Continues now question reply) :
    Opening q i (dialogue ++ [(question, reply)]) now := by
  cases ho with
  | @asks record rest driver _ h hdriver hwaits hsame =>
    cases hc.asked.symm.trans hwaits.asked
    obtain ⟨haccepts, p, c⟩ := hc.carried hwaits.stack
    cases reply with
    | failed e =>
      obtain ⟨rfl, hsame⟩ := c.ensures (Q := fun p s' =>
        p = .failed e ∧ s' = now.before.kernel.store) (Action.ensures_pure ⟨rfl, rfl⟩)
      exact .fails h hdriver c.ends.of_finished.1 hsame
    | opened =>
      have hplaces := c.ensures (Q := Action.Places
          { now.before.kernel.store with nextHandle := now.before.kernel.store.nextHandle + 1 }
          q.table (q.entry now.before.kernel.store.references.next record
            (.external now.before.kernel.store.nextHandle)))
        (Action.ensures_newHandle.bind fun _ _ ⟨he, hs⟩ => by
          subst he hs
          exact Action.ensures_openedFile q.table _ _ _ q.flags q.mode)
      exact .opens h hdriver (hplaces.settles c rfl rfl)
    | _ => cases haccepts
  | opens h hdriver hsettles =>
    cases hsettles with
    | installs hreturned => cases hc.asked.symm.trans hreturned
    | unplaced _ hreturned => cases hc.asked.symm.trans hreturned
    | abandons hexternal hwaits =>
      cases hdriver.symm.trans hexternal
      cases hc.asked.symm.trans hwaits.asked
      obtain ⟨-, p, c⟩ := hc.carried hwaits.stack
      obtain ⟨rfl, hsame⟩ :=
        c.ensures (Action.ensures_abandoning q.table (Path.clean q.path) reply)
      exact .abandoned h hdriver c.ends.of_finished.1 hsame
  | lists h hdriver hopen hsettles =>
    cases hsettles with
    | installs hreturned => cases hc.asked.symm.trans hreturned
    | unplaced _ hreturned => cases hc.asked.symm.trans hreturned
    | abandons hexternal => cases hdriver.symm.trans hexternal
  | invalid _ hreturned => cases hc.asked.symm.trans hreturned
  | missing _ _ hreturned => cases hc.asked.symm.trans hreturned
  | unlisted _ _ _ _ hreturned => cases hc.asked.symm.trans hreturned
  | fails _ _ hreturned => cases hc.asked.symm.trans hreturned
  | abandoned _ _ hreturned => cases hc.asked.symm.trans hreturned

end Opening

end

/-- **Every call to open a file** asks at most one driver to open it: that of the deepest mount on
the way along the path, with what follows the mount point in the clean path.  A file that is opened
takes a free slot, under a new descriptor with the clean path and one reference. -/
theorem files_opened (word enableMask : Sync.Word) (events : List Event) :
    ∃ moments, (Machine.initial word enableMask).trace [] events = .ok moments ∧
      ∀ past start later future dialogue now q i,
        moments = past ++ start :: (later ++ future) → start.Turn later dialogue now →
        start.event = .call (OpenRequest.call q) →
        start.before.kernel.store.instances[q.vfs]? = some i →
        start.before.kernel.store.isReachable q.table = true →
        (start.outcome = .returned (.error .invalidArgument) ↔
          q.path.head? ≠ some Path.delimiter) ∧ Opening q i dialogue now := by
  obtain ⟨moments, htrace, hmoments⟩ := Recalls.reached_suspended Catalog.step word enableMask
    (.initial word enableMask) events
  refine ⟨moments, htrace, fun past start later future dialogue now q i he hturn hevent hi ht => ?_⟩
  obtain ⟨h, -, k⟩ := hmoments past start (later ++ future) he
  have hbegin := h.opens hevent hi ht (k.own _ i hi)
  refine ⟨hbegin.invalid_iff, Suspended.turns (fun past now future he => ?_) he hturn hbegin
    fun _ ho _ hc => ho.next hc⟩
  obtain ⟨h, hsuspended, -⟩ := hmoments past now future he
  exact ⟨h, hsuspended⟩

end VirtualFs
