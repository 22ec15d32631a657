import VirtualFs.Proofs.Kernel.Provenance
import VirtualFs.Proofs.Mount.Entries

/-!
# Reading directories

An open directory is a path and a cursor; its node is looked up again at every reading.  So what is
mounted between two readings is seen by the second, and the readings of one descriptor, through
whatever tables, still enumerate: names ascend, each is the next one there is behind the last, and
what stays there all the time is returned once before the end is.

* `Happens.reading`: one reading, by the mount graph and the cursor as they are then.
* `Stands.read`: where the cursor stands after it, in terms of all that has been returned.
* `Enumerated.step`: every step.
* `directories_enumerated`: every reading of every run.
-/

namespace VirtualFs

/-! ### One reading -/

/-- What is answered to a reading of a directory: an entry or the end.  A process gets the entry
beside a number, or the number zero. -/
def Outcome.listed? : Outcome → Option ReadDir
  | .returned (.ok (.listed next)) => some next
  | .returned (.ok (.returned _ _ (some entry))) => some (.entry entry)
  | .returned (.ok (.returned value _ none)) => if value = 0 then some .finished else none
  | _ => none

theorem Outcome.listed?_receives (origin : Origin) (result : Except Error ReadDir) :
    (Outcome.returned (origin.receives (result.map .listed))).listed? = result.toOption := by
  cases origin <;> rcases result with e | _ | entry <;> rfl

/-- **Reading the directory of an open slot** that may read. -/
theorem Action.ensures_listing {s : Store} {t : TableId} {fd : Nat} {entry : FdEntry} {v : VfsId}
    {serial : Nat} (hslot : s.slot? t fd = some (.opened entry))
    (hpermission : entry.flags.contains .permRead = true)
    (hdriver : entry.descriptor.record.driver = .directory v)
    (hhandle : entry.descriptor.handle = .directory serial) :
    (transfer t fd .readdir).Ensures s fun p s' => ∃ result,
      p = .finished (result.map .listed) ∧ Advances s v serial result s' := by
  refine (ensures_permitted t fd _).bind ?_
  rintro result s' ⟨rfl, hentry⟩
  obtain rfl := (hentry entry).mpr ⟨hslot, hpermission⟩
  dsimp only
  rw [hdriver]
  dsimp only
  rw [hhandle]
  refine (ensures_holding _ (ensures_advance v serial)).bind ?_
  rintro (e | next) s'' h
  · exact ensures_pure ⟨_, rfl, h⟩
  · exact ensures_pure ⟨_, rfl, h⟩

namespace Moment

/-- The step is a call to read the directory of a slot with the entry. -/
def Readdirs (n : Moment) (entry : FdEntry) (origin : Origin) : Prop :=
  ∃ t fd, n.before.job? n.event = some (.begin (.transfer t fd .readdir), origin) ∧
    n.before.kernel.store.slot? t fd = some (.opened entry)

/-- The step reads the descriptor as a directory, in a slot that may read. -/
def Reads (n : Moment) (d : Descriptor) : Prop :=
  ∃ entry origin, n.Readdirs entry origin ∧ entry.descriptor = d ∧
    entry.flags.contains .permRead = true

/-- The step reads the descriptor as a directory and gets an entry or the end. -/
def Returns (n : Moment) (d : Descriptor) (next : ReadDir) : Prop :=
  n.Reads d ∧ n.outcome.listed? = some next

/-- The step fails and changes nothing. -/
def Fails (n : Moment) (origin : Origin) (e : Error) : Prop :=
  n.outcome = .returned (origin.receives (.error e)) ∧
    n.after.kernel.store = n.before.kernel.store

/-- There is a node at the path when the step comes. -/
def HasNode (n : Moment) (v : VfsId) (dir : Path) : Prop :=
  ∃ i, n.before.kernel.store.instances[v]? = some i ∧ i.graph.contains dir = true

/-- The node at the path has the entry when the step comes. -/
def Lists (n : Moment) (v : VfsId) (dir : Path) (entry : DirEntry) : Prop :=
  ∃ i, n.before.kernel.store.instances[v]? = some i ∧ i.graph.Lists dir entry

/-- The step opens the node at the path as a directory, under the descriptor. -/
structure OpensDirectory (n : Moment) (d : Descriptor) (v : VfsId) (dir : Path) : Prop where
  driver : d.record.driver = .directory v
  handle : d.handle = .directory n.before.kernel.store.openDirectories.size
  node : n.HasNode v dir
  cursor : n.after.kernel.store.openDirectories[n.before.kernel.store.openDirectories.size]? =
    some ⟨dir, .start⟩
  placed : 0 < n.opens d

/-- **What comes of a reading** of the directory at a path, with its cursor. -/
inductive Reading (n : Moment) (v : VfsId) (dir : Path) (cursor : Cursor) :
    Except Error ReadDir → Cursor → Prop
  /-- The end has been reported. -/
  | ended (hcursor : cursor = .finished) : Reading n v dir cursor (.error .invalidArgument) cursor
  /-- There is no node at the path; the cursor stays. -/
  | missing (hcursor : cursor ≠ .finished) (hnode : ¬ n.HasNode v dir) :
      Reading n v dir cursor (.error .notFound) cursor
  /-- The first entry behind the cursor. -/
  | entry {entry : DirEntry} (hcursor : cursor ≠ .finished) (hnode : n.HasNode v dir)
      (hlists : n.Lists v dir entry) (hbehind : Segment.Behind cursor.last? entry.name)
      (hleast : ∀ other, n.Lists v dir other → Segment.Behind cursor.last? other.name →
        other.name = entry.name ∨ Segment.Before entry.name other.name) :
      Reading n v dir cursor (.ok (.entry entry)) (.after entry.name)
  /-- No entry is behind the cursor. -/
  | finished (hcursor : cursor ≠ .finished) (hnode : n.HasNode v dir)
      (hnone : ∀ entry, n.Lists v dir entry → ¬ Segment.Behind cursor.last? entry.name) :
      Reading n v dir cursor (.ok .finished) .finished

end Moment

namespace Happens

variable {past : List Moment} {now : Moment} {d : Descriptor} {v : VfsId} {dir : Path}
  {cursor : Cursor} {serial : Nat} {entry : FdEntry} {origin : Origin}

/-- **A reading** goes by the mount graph as it is when it comes, and by the cursor. -/
theorem reading (h : Happens past now) (hreads : now.Readdirs entry origin)
    (hpermission : entry.flags.contains .permRead = true)
    (hdriver : entry.descriptor.record.driver = .directory v)
    (hhandle : entry.descriptor.handle = .directory serial)
    (hd : now.before.kernel.store.openDirectories[serial]? = some ⟨dir, cursor⟩) :
    ∃ result cursor', now.Reading v dir cursor result cursor' ∧
      now.outcome = .returned (origin.receives (result.map .listed)) ∧
      now.after.kernel.store.openDirectories[serial]? = some ⟨dir, cursor'⟩ ∧
      ∀ e, result = .error e → now.after.kernel.store = now.before.kernel.store := by
  obtain ⟨t, fd, hjob, hslot⟩ := hreads
  obtain ⟨p, c⟩ := h.carried hjob
  obtain ⟨result, rfl, hadvances⟩ :=
    c.ensures (Action.ensures_listing hslot hpermission hdriver hhandle)
  have houtcome := c.ends.of_finished.1
  obtain ⟨H, r⟩ := h.before
  have hcontinues : ∀ {i}, now.before.kernel.store.instances[v]? = some i →
      i.graph.Continues dir cursor.last? (i.graph.entryAfter dir cursor.last?) := fun hi =>
    (r.sound.served.graphs hi).regular.linked.continues dir cursor.last?
  have hlt := (Array.getElem?_eq_some_iff.mp hd).1
  generalize hs : now.after.kernel.store = s' at hadvances ⊢
  cases hadvances with
  | ended hd' =>
    cases hd.symm.trans hd'
    exact ⟨_, _, .ended rfl, houtcome, hd, fun _ _ => rfl⟩
  | failed hd' hcursor hi hnext =>
    cases hd.symm.trans hd'
    have hgraph := hcontinues hi
    rw [hnext] at hgraph
    cases hgraph with
    | missing hnode =>
      refine ⟨_, _, .missing hcursor ?_, houtcome, hd, fun _ _ => rfl⟩
      rintro ⟨i, hi', hhas⟩
      cases hi.symm.trans hi'
      exact absurd hhas (by rw [hnode]; exact Bool.false_ne_true)
  | entry hd' hcursor hi hnext =>
    cases hd.symm.trans hd'
    have hgraph := hcontinues hi
    rw [hnext] at hgraph
    cases hgraph with
    | next hnode hlists hbehind hleast =>
      refine ⟨_, _, .entry hcursor ⟨_, hi, hnode⟩ ⟨_, hi, hlists⟩ hbehind ?_, houtcome,
        Array.getElem?_setIfInBounds_self_of_lt hlt, nofun⟩
      rintro other ⟨i, hi', hother⟩
      cases hi.symm.trans hi'
      exact hleast other hother
  | finished hd' hcursor hi hnext =>
    cases hd.symm.trans hd'
    have hgraph := hcontinues hi
    rw [hnext] at hgraph
    cases hgraph with
    | ended hnode hnone =>
      refine ⟨_, _, .finished hcursor ⟨_, hi, hnode⟩ ?_, houtcome,
        Array.getElem?_setIfInBounds_self_of_lt hlt, nofun⟩
      rintro entry ⟨i, hi', hentry⟩
      cases hi.symm.trans hi'
      exact hnone entry hentry

end Happens

/-! ### What has been returned -/

/-- The name comes behind all that have been returned for the descriptor. -/
def Ahead (past : List Moment) (d : Descriptor) (name : Segment) : Prop :=
  ∀ n ∈ past, ∀ entry, n.Returns d (.entry entry) → Segment.Before entry.name name

/-- Whenever a reading of the descriptor has returned something, the node had a child with the
name. -/
def Stays (past : List Moment) (d : Descriptor) (v : VfsId) (dir : Path) (name : Segment) : Prop :=
  ∀ n ∈ past, ∀ next, n.Returns d next → ∃ entry, n.Lists v dir entry ∧ entry.name = name

/-- **Where the cursor stands** after the moments of the past. -/
structure Stands (past : List Moment) (d : Descriptor) (v : VfsId) (dir : Path) (cursor : Cursor) :
    Prop where
  ended : cursor = .finished ↔ ∃ n ∈ past, n.Returns d .finished
  ahead : cursor ≠ .finished → ∀ name, Ahead past d name ↔ Segment.Behind cursor.last? name
  ascending : past.Pairwise fun n n' => ∀ e e', n.Returns d (.entry e) →
    n'.Returns d (.entry e') → Segment.Before e.name e'.name
  /-- What was there all the time is still to come or has been returned. -/
  passed : ∀ name, Stays past d v dir name → Ahead past d name ∨
    ∃ n ∈ past, ∃ entry, n.Returns d (.entry entry) ∧ entry.name = name

section

variable {past : List Moment} {now : Moment} {d : Descriptor} {v : VfsId} {dir : Path}
  {cursor cursor' : Cursor} {name : Segment}

theorem ahead_append : Ahead (past ++ [now]) d name ↔
    Ahead past d name ∧ ∀ entry, now.Returns d (.entry entry) → Segment.Before entry.name name := by
  simp only [Ahead, List.forall_mem_append, List.forall_mem_singleton]

theorem stays_append : Stays (past ++ [now]) d v dir name ↔ Stays past d v dir name ∧
    ∀ next, now.Returns d next → ∃ entry, now.Lists v dir entry ∧ entry.name = name := by
  simp only [Stays, List.forall_mem_append, List.forall_mem_singleton]

theorem exists_append {p : Moment → Prop} :
    (∃ n ∈ past ++ [now], p n) ↔ (∃ n ∈ past, p n) ∨ p now := by
  simp only [List.mem_append, List.mem_singleton, or_and_right, exists_or, exists_eq_left]

theorem ascending_append :
    ((past ++ [now]).Pairwise fun n n' => ∀ e e', n.Returns d (.entry e) →
      n'.Returns d (.entry e') → Segment.Before e.name e'.name) ↔
    (past.Pairwise fun n n' => ∀ e e', n.Returns d (.entry e) →
      n'.Returns d (.entry e') → Segment.Before e.name e'.name) ∧
    ∀ n ∈ past, ∀ e e', n.Returns d (.entry e) → now.Returns d (.entry e') →
      Segment.Before e.name e'.name := by
  simp only [List.pairwise_append, List.pairwise_singleton, List.forall_mem_singleton, true_and]

namespace Stands

/-- Nothing has been read yet. -/
theorem start (hnone : ∀ n ∈ past, ¬ n.Reads d) : Stands past d v dir .start where
  ended := iff_of_false Cursor.noConfusion fun ⟨n, hn, hreturns⟩ => hnone n hn hreturns.1
  ahead _ name := iff_of_true (fun n hn _ hreturns => absurd hreturns.1 (hnone n hn))
    (Segment.behind_none name)
  ascending := List.pairwise_of_forall_mem_list fun n hn _ _ _ _ hreturns =>
    absurd hreturns.1 (hnone n hn)
  passed _ _ := .inl fun n hn _ hreturns => absurd hreturns.1 (hnone n hn)

/-- A step that returns nothing. -/
theorem skip (k : Stands past d v dir cursor) (hnone : ∀ next, ¬ now.Returns d next) :
    Stands (past ++ [now]) d v dir cursor where
  ended := by rw [k.ended, exists_append, or_iff_left (hnone _)]
  ahead hcursor name := by
    rw [ahead_append, k.ahead hcursor]
    exact and_iff_left fun entry hreturns => absurd hreturns (hnone _)
  ascending := ascending_append.mpr ⟨k.ascending, fun _ _ _ _ _ hreturns =>
    absurd hreturns (hnone _)⟩
  passed name hstays := by
    rw [ahead_append, exists_append]
    refine (k.passed name (stays_append.mp hstays).1).imp (fun hahead => ⟨hahead, ?_⟩) .inl
    exact fun entry hreturns => absurd hreturns (hnone _)

variable {result : Except Error ReadDir}

/-- A reading that gets an entry. -/
theorem entry (k : Stands past d v dir cursor) (hreads : now.Reads d)
    (hcursor : cursor ≠ .finished) {entry : DirEntry}
    (hlisted : now.outcome.listed? = some (.entry entry))
    (hbehind : Segment.Behind cursor.last? entry.name)
    (hleast : ∀ other, now.Lists v dir other → Segment.Behind cursor.last? other.name →
      other.name = entry.name ∨ Segment.Before entry.name other.name) :
    Stands (past ++ [now]) d v dir (.after entry.name) := by
  have honly : ∀ next, now.Returns d next → next = .entry entry := fun next hreturns =>
    Option.some.inj (hreturns.2.symm.trans hlisted)
  exact
    { ended := by
        refine iff_of_false Cursor.noConfusion ?_
        rw [exists_append, ← k.ended]
        rintro (hended | hreturns)
        · exact hcursor hended
        · cases honly _ hreturns
      ahead := fun _ name => by
        rw [ahead_append, k.ahead hcursor]
        constructor
        · exact fun h => Segment.behind_some.mpr (h.2 entry ⟨hreads, hlisted⟩)
        · intro h
          have hbefore := Segment.behind_some.mp h
          refine ⟨hbehind.trans hbefore, fun other hreturns => ?_⟩
          cases honly _ hreturns
          exact hbefore
      ascending := by
        refine ascending_append.mpr ⟨k.ascending, fun n hn e e' hreturned hreturns => ?_⟩
        cases honly _ hreturns
        exact (k.ahead hcursor entry.name).mpr hbehind n hn e hreturned
      passed := by
        intro name hstays
        obtain ⟨hstays, hnow⟩ := stays_append.mp hstays
        rw [exists_append]
        rcases k.passed name hstays with hahead | hreturned
        · obtain ⟨other, hlists, rfl⟩ := hnow _ ⟨hreads, hlisted⟩
          rcases hleast other hlists ((k.ahead hcursor _).mp hahead) with hsame | hbefore
          · exact .inr (.inr ⟨entry, ⟨hreads, hlisted⟩, hsame.symm⟩)
          · refine .inl (ahead_append.mpr ⟨hahead, fun e hreturns => ?_⟩)
            cases honly _ hreturns
            exact hbefore
        · exact .inr (.inl hreturned) }

/-- A reading that gets the end. -/
theorem finish (k : Stands past d v dir cursor) (hreads : now.Reads d)
    (hlisted : now.outcome.listed? = some .finished) :
    Stands (past ++ [now]) d v dir .finished := by
  have honly : ∀ entry, ¬ now.Returns d (.entry entry) := fun entry hreturns => by
    cases hreturns.2.symm.trans hlisted
  exact
    { ended := iff_of_true rfl (exists_append.mpr (.inr ⟨hreads, hlisted⟩))
      ahead := fun hne => absurd rfl hne
      ascending := ascending_append.mpr ⟨k.ascending, fun _ _ _ e _ hreturns =>
        absurd hreturns (honly e)⟩
      passed := by
        intro name hstays
        rw [ahead_append, exists_append]
        refine (k.passed name (stays_append.mp hstays).1).imp (fun hahead => ⟨hahead, ?_⟩) .inl
        exact fun e hreturns => absurd hreturns (honly e) }

/-- **After a reading** the cursor stands where the reading has put it. -/
theorem read (k : Stands past d v dir cursor) (hreads : now.Reads d)
    (hreading : now.Reading v dir cursor result cursor')
    (hlisted : now.outcome.listed? = result.toOption) : Stands (past ++ [now]) d v dir cursor' := by
  cases hreading with
  | ended | missing =>
    exact k.skip fun _ hreturns => nomatch hlisted.symm.trans hreturns.2
  | entry hcursor _ _ hbehind hleast => exact k.entry hreads hcursor hlisted hbehind hleast
  | finished => exact k.finish hreads hlisted

/-- A name that has been returned has been returned once. -/
theorem once (k : Stands past d v dir cursor) {n : Moment} (hn : n ∈ past) {entry : DirEntry}
    (hreturned : n.Returns d (.entry entry)) : ∃ a n b, past = a ++ n :: b ∧
      (∃ e, n.Returns d (.entry e) ∧ e.name = entry.name) ∧
      ∀ n' ∈ a ++ b, ∀ e, n'.Returns d (.entry e) → e.name ≠ entry.name := by
  obtain ⟨a, b, rfl⟩ := List.append_of_mem hn
  obtain ⟨-, hlater, hearlier⟩ := List.pairwise_append.mp k.ascending
  refine ⟨a, n, b, rfl, ⟨entry, hreturned, rfl⟩, fun n' hn' e hreturns => ?_⟩
  rcases List.mem_append.mp hn' with hn' | hn'
  · exact (hearlier n' hn' n List.mem_cons_self e entry hreturns hreturned).ne
  · exact ((List.pairwise_cons.mp hlater).1 n' hn' entry e hreturned hreturns).ne.symm

end Stands

end

/-! ### Runs -/

/-- The descriptor has been opened as the directory at the path, and as no other. -/
structure OpenedAs (past : List Moment) (d : Descriptor) (v : VfsId) (dir : Path) : Prop where
  opened : ∃ n ∈ past, n.OpensDirectory d v dir
  only : ∀ n ∈ past, ∀ other, n.OpensDirectory d v other → other = dir

/-- **What is known of open directories** after the moments of the past. -/
structure Enumerated (past : List Moment) (m : Machine) : Prop extends Witnessed past m where
  read : ∀ n ∈ past, ∀ {d}, n.Reads d → Seen past d
  stands : ∀ {d v serial}, Seen past d → d.record.driver = .directory v →
    d.handle = .directory serial → ∃ dir cursor,
      m.kernel.store.openDirectories[serial]? = some ⟨dir, cursor⟩ ∧
      OpenedAs past d v dir ∧ Stands past d v dir cursor

namespace Enumerated

variable {past : List Moment} {now : Moment} {d : Descriptor} {v : VfsId} {serial : Nat}

theorem initial (word enableMask : Sync.Word) : Enumerated [] (.initial word enableMask) where
  toWitnessed := .initial word enableMask
  read n hn := by cases hn
  stands hseen := by
    obtain ⟨n, hn, -⟩ := hseen
    cases hn

/-- What is read is in a slot. -/
theorem seen_of_reads {m : Moment} (k : Witnessed past m.before) (h : m.Reads d) : Seen past d := by
  obtain ⟨entry, origin, ⟨t, fd, -, hslot⟩, rfl, -⟩ := h
  exact k.opened (Store.Open.opens_pos ⟨t, hslot⟩)

/-- A directory that is not read keeps its cursor. -/
theorem unread (h : Happens past now) (hseen : Seen past d) (hhandle : d.handle = .directory serial)
    (hreads : ¬ now.Reads d) {directory : Directory}
    (hd : now.before.kernel.store.openDirectories[serial]? = some directory) :
    now.after.kernel.store.openDirectories[serial]? = some directory := by
  refine (h.reads hd).resolve_right ?_
  rintro ⟨t, fd, origin, entry, v, hjob, hslot, hpermission, -, hserial⟩
  -- a handle tells which descriptor it is
  obtain ⟨H, r⟩ := h.before
  obtain ⟨n, hn, hpos⟩ := hseen
  have hsame := r.sound.books.handles (r.sound.books.opened (Store.Open.opens_pos ⟨t, hslot⟩))
    (r.installed n hn d hpos) (hserial.trans hhandle.symm)
  exact hreads ⟨entry, origin, ⟨t, fd, hjob, hslot⟩, hsame, hpermission⟩

/-- A directory that comes into a slot has been opened in the step. -/
theorem opens_of_new (h : Happens past now) (ha : Asking now.questions now.before.stack)
    (k : Witnessed past now.before) (hnew : ¬ Seen past d) (hpos : 0 < now.opens d)
    (hdriver : d.record.driver = .directory v) : ∃ dir, now.OpensDirectory d v dir := by
  obtain ⟨t, fd, entry, hslot, rfl⟩ := Store.opens_pos_iff.mp hpos
  have hbefore : ¬ now.before.kernel.store.Open fd entry := fun ho => hnew (k.opened ho.opens_pos)
  rcases h.opened ha with hopened | ⟨fd', entry', honly, -, hmade⟩
  · exact absurd (hopened ⟨t, hslot⟩) hbefore
  obtain ⟨rfl, rfl⟩ := (honly fd entry ⟨t, hslot⟩).resolve_left hbefore
  rcases hmade with hmakes | ⟨u, origin, hclosing⟩
  · cases hmakes with
    | external hdriver' => cases hdriver.symm.trans hdriver'
    | directory hdriver' hjob hhandle hi hcontains hopen =>
      cases hdriver.symm.trans hdriver'
      exact ⟨_, hdriver, hhandle, ⟨_, hi, hcontains⟩, hopen, hpos⟩
  · exact absurd (k.closing hclosing) hnew

/-- A descriptor that has been opened as a directory is not opened again. -/
theorem openedAs_append {dir : Path} {cursor : Cursor} (k : OpenedAs past d v dir)
    (hhandle : d.handle = .directory serial)
    (hd : now.before.kernel.store.openDirectories[serial]? = some ⟨dir, cursor⟩) :
    OpenedAs (past ++ [now]) d v dir where
  opened := by
    obtain ⟨n, hn, hopens⟩ := k.opened
    exact ⟨n, List.mem_append_left _ hn, hopens⟩
  only n hn other hopens := by
    rcases List.mem_append.mp hn with hn | hn
    · exact k.only n hn other hopens
    · cases List.mem_singleton.mp hn
      obtain rfl := Handle.directory.inj (hhandle.symm.trans hopens.handle)
      rw [Array.getElem?_size] at hd
      cases hd

/-- A descriptor that is opened for the first time. -/
theorem openedAs_of_new {dir : Path} (hnew : ¬ Seen past d) (hopens : now.OpensDirectory d v dir) :
    OpenedAs (past ++ [now]) d v dir where
  opened := ⟨now, List.mem_append_right _ List.mem_cons_self, hopens⟩
  only n hn other hother := by
    rcases List.mem_append.mp hn with hn | hn
    · exact absurd ⟨n, hn, hother.placed⟩ hnew
    · cases List.mem_singleton.mp hn
      cases hother.cursor.symm.trans hopens.cursor
      rfl

/-- **Every step** keeps what is known of open directories. -/
theorem step (h : Happens past now) (ha : Asking now.questions now.before.stack)
    (k : Enumerated past now.before) : Enumerated (past ++ [now]) now.after where
  toWitnessed := k.toWitnessed.step h
  read n hn d hreads := by
    rcases List.mem_append.mp hn with hn | hn
    · exact (k.read n hn hreads).append now
    · cases List.mem_singleton.mp hn
      exact (seen_of_reads k.toWitnessed hreads).append now
  stands {d v serial} hseen hdriver hhandle := by
    by_cases hold : Seen past d
    · obtain ⟨dir, cursor, hd, hopened, hstands⟩ := k.stands hold hdriver hhandle
      have hopened := openedAs_append hopened hhandle hd
      by_cases hreads : now.Reads d
      · obtain ⟨entry, origin, hreaddirs, rfl, hpermission⟩ := id hreads
        obtain ⟨result, cursor', hreading, houtcome, hafter, -⟩ :=
          h.reading hreaddirs hpermission hdriver hhandle hd
        refine ⟨dir, cursor', hafter, hopened, hstands.read hreads hreading ?_⟩
        rw [houtcome, Outcome.listed?_receives]
      · exact ⟨dir, cursor, unread h hold hhandle hreads hd, hopened,
          hstands.skip fun _ hreturns => hreads hreturns.1⟩
    · obtain ⟨n, hn, hpos⟩ := hseen
      obtain rfl : n = now := by
        rcases List.mem_append.mp hn with hn | hn
        · exact absurd ⟨n, hn, hpos⟩ hold
        · exact List.mem_singleton.mp hn
      obtain ⟨dir, hopens⟩ := opens_of_new h ha k.toWitnessed hold hpos hdriver
      obtain rfl := Handle.directory.inj (hhandle.symm.trans hopens.handle)
      refine ⟨dir, .start, hopens.cursor, openedAs_of_new hold hopens,
        .start fun n' hn' hreads => ?_⟩
      rcases List.mem_append.mp hn' with hn' | hn'
      · exact hold (k.read n' hn' hreads)
      · cases List.mem_singleton.mp hn'
        exact hold (seen_of_reads k.toWitnessed hreads)

end Enumerated

/-- **A directory is enumerated** by the readings of its descriptor up to now: that of the node at
path `dir` in the mount graph of file system `v`. -/
structure Moment.Enumerates (past : List Moment) (now : Moment) (origin : Origin) (d : Descriptor)
    (v : VfsId) (dir : Path) : Prop where
  /-- The names that are returned ascend. -/
  ascending : (past ++ [now]).Pairwise fun n n' => ∀ e e', n.Returns d (.entry e) →
    n'.Returns d (.entry e') → Segment.Before e.name e'.name
  /-- After the end every reading fails. -/
  ended : (∃ n ∈ past, n.Returns d .finished) → now.Fails origin .invalidArgument
  /-- Before, a reading fails as long as there is no node, -/
  missing : (¬ ∃ n ∈ past, n.Returns d .finished) → ¬ now.HasNode v dir →
    now.Fails origin .notFound
  /-- and returns something when there is. -/
  found : (¬ ∃ n ∈ past, n.Returns d .finished) → now.HasNode v dir → ∃ next, now.Returns d next
  /-- An entry that is returned is the first that comes behind those returned before. -/
  next : ∀ {entry}, now.Returns d (.entry entry) → now.Lists v dir entry ∧
    Ahead past d entry.name ∧ ∀ other, now.Lists v dir other → Ahead past d other.name →
      other.name = entry.name ∨ Segment.Before entry.name other.name
  /-- At the end none comes behind them, -/
  finished : now.Returns d .finished → ∀ entry, now.Lists v dir entry → ¬ Ahead past d entry.name
  /-- and what was there at every reading has been returned once. -/
  complete : now.Returns d .finished → ∀ name, Stays (past ++ [now]) d v dir name →
    ∃ a n b, past = a ++ n :: b ∧ (∃ entry, n.Returns d (.entry entry) ∧ entry.name = name) ∧
      ∀ n' ∈ a ++ b, ∀ entry, n'.Returns d (.entry entry) → entry.name ≠ name

/-- A reading with the cursor where it stands goes on with the enumeration. -/
theorem Stands.enumerates {past : List Moment} {now : Moment} {origin : Origin} {d : Descriptor}
    {v : VfsId} {dir : Path} {cursor cursor' : Cursor} {result : Except Error ReadDir}
    (k : Stands past d v dir cursor) (hreads : now.Reads d)
    (hreading : now.Reading v dir cursor result cursor')
    (houtcome : now.outcome = .returned (origin.receives (result.map .listed)))
    (hsame : ∀ e, result = .error e → now.after.kernel.store = now.before.kernel.store) :
    now.Enumerates past origin d v dir := by
  have hlisted : now.outcome.listed? = result.toOption := by
    rw [houtcome, Outcome.listed?_receives]
  have honly : ∀ {next}, now.Returns d next → result.toOption = some next :=
    fun hreturns => hlisted.symm.trans hreturns.2
  have hafter := k.read hreads hreading hlisted
  have hended := k.ended
  cases hreading with
  | ended hcursor =>
    exact
      { ascending := hafter.ascending
        ended := fun _ => ⟨houtcome, hsame _ rfl⟩
        missing := fun hnot => absurd (hended.mp hcursor) hnot
        found := fun hnot => absurd (hended.mp hcursor) hnot
        next := fun hreturns => nomatch honly hreturns
        finished := fun hreturns => nomatch honly hreturns
        complete := fun hreturns => nomatch honly hreturns }
  | missing hcursor hnode =>
    exact
      { ascending := hafter.ascending
        ended := fun hdone => absurd (hended.mpr hdone) hcursor
        missing := fun _ _ => ⟨houtcome, hsame _ rfl⟩
        found := fun _ hhas => absurd hhas hnode
        next := fun hreturns => nomatch honly hreturns
        finished := fun hreturns => nomatch honly hreturns
        complete := fun hreturns => nomatch honly hreturns }
  | entry hcursor hnode hlists hbehind hleast =>
    exact
      { ascending := hafter.ascending
        ended := fun hdone => absurd (hended.mpr hdone) hcursor
        missing := fun _ hnot => absurd hnode hnot
        found := fun _ _ => ⟨_, hreads, hlisted⟩
        next := fun hreturns => by
          cases honly hreturns
          exact ⟨hlists, (k.ahead hcursor _).mpr hbehind, fun other hother hahead =>
            hleast other hother ((k.ahead hcursor _).mp hahead)⟩
        finished := fun hreturns => nomatch honly hreturns
        complete := fun hreturns => nomatch honly hreturns }
  | finished hcursor hnode hnone =>
    have hbeyond : ∀ e, now.Lists v dir e → ¬ Ahead past d e.name :=
      fun e he hahead => hnone e he ((k.ahead hcursor _).mp hahead)
    exact
      { ascending := hafter.ascending
        ended := fun hdone => absurd (hended.mpr hdone) hcursor
        missing := fun _ hnot => absurd hnode hnot
        found := fun _ _ => ⟨_, hreads, hlisted⟩
        next := fun hreturns => nomatch honly hreturns
        finished := fun _ => hbeyond
        complete := fun hreturns name hstays => by
          obtain ⟨hstays, hnow⟩ := stays_append.mp hstays
          obtain ⟨e, he, rfl⟩ := hnow _ hreturns
          obtain ⟨n, hn, other, hreturned, hname⟩ :=
            (k.passed _ hstays).resolve_left (hbeyond e he)
          exact hname ▸ k.once hn hreturned }

/-- **A reading** at any moment of a run goes on with the enumeration of its directory. -/
theorem Happens.enumerates {past : List Moment} {now : Moment} (h : Happens past now)
    (k : Enumerated past now.before) {entry : FdEntry} {origin : Origin} {v : VfsId}
    (hreaddirs : now.Readdirs entry origin) (hpermission : entry.flags.contains .permRead = true)
    (hdriver : entry.descriptor.record.driver = .directory v) : ∃ dir,
      OpenedAs past entry.descriptor v dir ∧
        now.Enumerates past origin entry.descriptor v dir := by
  have hreads : now.Reads entry.descriptor := ⟨entry, origin, hreaddirs, rfl, hpermission⟩
  obtain ⟨t, fd, -, hslot⟩ := id hreaddirs
  obtain ⟨H, r⟩ := h.before
  obtain ⟨serial, -, hhandle, -⟩ := r.sound.books.handle_of_directory
    (r.sound.books.opened (Store.Open.opens_pos ⟨t, hslot⟩)) hdriver
  obtain ⟨dir, cursor, hd, hopened, hstands⟩ :=
    k.stands (Enumerated.seen_of_reads k.toWitnessed hreads) hdriver hhandle
  obtain ⟨result, cursor', hreading, houtcome, -, hsame⟩ :=
    h.reading hreaddirs hpermission hdriver hhandle hd
  exact ⟨dir, hopened, hstands.enumerates hreads hreading houtcome hsame⟩

/-- **Directories are enumerated** in every run, whatever is mounted and unmounted meanwhile, and
whichever tables share the descriptor: the calls that read it go on with the directory that it was
opened as, if the slot may read, and are denied otherwise. -/
theorem directories_enumerated (word enableMask : Sync.Word) (events : List Event) :
    ∃ moments, (Machine.initial word enableMask).trace [] events = .ok moments ∧
      ∀ past now future, moments = past ++ now :: future → ∀ entry origin v,
        now.Readdirs entry origin → entry.descriptor.record.driver = .directory v →
        (entry.flags.contains .permRead = false → now.Fails origin .permissionDenied) ∧
        (entry.flags.contains .permRead = true → ∃ dir, OpenedAs past entry.descriptor v dir ∧
          now.Enumerates past origin entry.descriptor v dir) := by
  obtain ⟨moments, htrace, hmoments⟩ := Recalls.reached_asking (I := Enumerated)
    (fun h ha k => k.step h ha) word enableMask (.initial word enableMask) events
  refine ⟨moments, htrace, fun past now future he entry origin v hreaddirs hdriver => ?_⟩
  obtain ⟨h, -, k, -⟩ := hmoments past now future he
  refine ⟨fun hlacks => ?_, fun hpermission => h.enumerates k hreaddirs hpermission hdriver⟩
  obtain ⟨t, fd, hjob, hslot⟩ := hreaddirs
  obtain ⟨houtcome, hafter⟩ := h.denied hjob hslot hlacks
  exact ⟨houtcome, by rw [hafter]⟩

/-- A directory that is read in two tables, while the directory itself goes and comes back. -/
example : (do
    let ram : Driver := .external ⟨0, "ram"⟩
    let moments ← (Machine.initial 0 0).trace [] [.call (.createVfs 8),
      .call (.register 0 "/d/b".toList ram none), .call (.createTable 2),
      .call (.open 0 1 "/d".toList .readOnly 0), .call (.copyTable 1 none),
      .call (.transfer 1 0 .readdir), .call (.unmount 0 "/d/b".toList),
      .call (.transfer 2 0 .readdir), .call (.register 0 "/d/a".toList ram none),
      .call (.register 0 "/d/cc/x".toList ram none), .call (.transfer 2 0 .readdir),
      .call (.transfer 1 0 .readdir), .call (.transfer 2 0 .readdir)]
    return (moments.drop 5).map fun n : Moment => n.outcome.listed?) =
    .ok [some (.entry ⟨"b".toList, .file⟩), none, none, none, none,
      some (.entry ⟨"cc".toList, .directory⟩), some .finished, none] := by
  cbv

end VirtualFs
