import VirtualFs.Kernel.Directories
import VirtualFs.Kernel.Mounts
import VirtualFs.Proofs.Kernel.Mounting
import VirtualFs.Proofs.Mount.Listing
import VirtualFs.Proofs.Mount.Records

/-!
# Mount tables that are in order

`Served s` says that every mount graph of the store `s` is regular and that its records name
drivers that exist.  No call on a mount table leads out of such stores or stops with a fault,
whatever records and registrations it is given and whatever came between its steps, and none
touches tables, references or handles (`SameFiles`).

* `Stocked.mount`, `Stocked.unmount`, `Stocked.detach`: mounting and detaching in one graph.
* `Stocked.of_resolve`: a path is served by a record of the graph.
* `serves_register`, `serves_unregister`, `serves_detach`, `serves_reattach`: the actions on a mount
  table.
-/

namespace VirtualFs

namespace Mount.Graph

variable {ρ : Type} {g : Graph ρ} {P : ρ → Prop}

/-- The graph is regular, and its records are of one kind. -/
structure Stocked (P : ρ → Prop) (g : Graph ρ) : Prop where
  regular : g.Regular
  records : ∀ {segments record}, g.Holds segments record → P record

theorem stocked_withLimit (P : ρ → Prop) (limit : Nat) : (withLimit limit : Graph ρ).Stocked P where
  regular := regular_withLimit limit
  records := by
    rintro segments record ⟨id, node, -, hn, hd⟩
    rw [node?_withLimit] at hn
    split at hn
    · cases hn
      cases hd
    · cases hn

theorem Stocked.imp (k : g.Stocked P) {Q : ρ → Prop} (h : ∀ record, P record → Q record) :
    g.Stocked Q :=
  ⟨k.regular, fun hh => h _ (k.records hh)⟩

/-- The record of a node is held somewhere. -/
theorem Stocked.of_node (k : g.Stocked P) {id : NodeId} {node : Node ρ} {record : ρ}
    (hn : g.node? id = some node) (hd : node.driver = some record) : P record := by
  obtain ⟨top, htop, -⟩ := k.regular.linked.root
  obtain ⟨segments, route⟩ :=
    k.regular.linked.exists_route htop (k.regular.linked.below_root hn)
  exact k.records ⟨id, node, route, hn, hd⟩

theorem Stocked.attach (k : g.Stocked P) (path : Path) {record : ρ} (hP : P record) :
    ∃ h changes answer, g.attach path record = .ok ⟨h, changes, answer⟩ ∧ h.Stocked P := by
  rcases k.regular.attach path record with
    ⟨h, changes, e, hattach, hgrown, rh, -⟩ | ⟨rest, h, changes, id, -, hattach, rh, ha⟩
  · exact ⟨h, changes, .error e, hattach, rh, fun hh => k.records (hgrown.holds_iff.mp hh)⟩
  · refine ⟨h, changes, .ok id, hattach, rh, fun {segments other} hh => ?_⟩
    rw [ha.holds_iff] at hh
    split at hh
    · exact hh ▸ hP
    · exact k.records hh

theorem Stocked.mount (k : g.Stocked P) (path : Path) (record : ρ) (hP : P record) :
    ∃ h changes answer, g.mount path record = .ok ⟨h, changes, answer⟩ ∧ h.Stocked P := by
  rw [Graph.mount]
  split
  · exact ⟨g, [], _, rfl, k⟩
  · exact k.attach path hP

variable [DecidableEq ρ]

/-- What is detached was a record of the graph. -/
theorem Stocked.detach (k : g.Stocked P) (id : NodeId) (record : ρ) :
    ∃ h changes answer, g.detach id record = .ok ⟨h, changes, answer⟩ ∧ h.Stocked P ∧
      ∀ found, answer = .ok found → P found := by
  by_cases howner : ∃ node, g.node? id = some node ∧ node.driver = some record
  · obtain ⟨node, hn, hd⟩ := howner
    obtain ⟨top, htop, -⟩ := k.regular.linked.root
    obtain ⟨segments, route⟩ :=
      k.regular.linked.exists_route htop (k.regular.linked.below_root hn)
    obtain ⟨gone, changes, hdetach, hgone, rh, -⟩ := k.regular.detach hn hd
    refine ⟨_, changes, _, hdetach, ⟨rh, fun hh => ?_⟩, fun found he => ?_⟩
    · exact k.records ((k.regular.holds_detached route hn hgone).mp hh).2
    · cases he
      exact k.of_node hn hd
  · have hdetach := detach_notFound fun node hn hd => howner ⟨node, hn, hd⟩
    exact ⟨g, [], _, hdetach, k, fun found he => by cases he⟩

theorem Stocked.unmount (k : g.Stocked P) (path : Path) :
    ∃ h changes answer, g.unmount path = .ok ⟨h, changes, answer⟩ ∧ h.Stocked P ∧
      ∀ found, answer = .ok found → P found := by
  rw [Graph.unmount]
  cases g.mounted? path with
  | none => exact ⟨g, [], _, rfl, k, fun found he => by cases he⟩
  | some found => exact k.detach found.1 found.2

omit [DecidableEq ρ] in
/-- **A path is served** by a record of the graph. -/
theorem Stocked.of_resolve (k : g.Stocked P) {path : Path} {record : ρ} {offset : Nat}
    (h : g.resolve path = .ok (.driver record offset)) : P record := by
  obtain ⟨id, hid⟩ := exists_record?_of_resolve h
  obtain ⟨node, hn, hd⟩ := exists_node_of_record? hid
  exact k.of_node hn hd

end Mount.Graph

namespace Store

variable {s s' s'' : Store} {v : VfsId} {i : Instance}

/-- Every mount graph is regular, and the drivers that are named exist. -/
structure Served (s : Store) : Prop where
  graphs : ∀ {v : VfsId} {i : Instance}, s.instances[v]? = some i →
    i.graph.Stocked fun record => s.hasDriver record.driver = true
  directories : ∀ {v : VfsId} {i : Instance}, s.instances[v]? = some i →
    s.hasDriver i.directories.driver = true

/-- Only mount tables have changed. -/
structure SameFiles (s s' : Store) : Prop where
  tables : s'.tables = s.tables
  references : s'.references = s.references
  openDirectories : s'.openDirectories = s.openDirectories
  nextHandle : s'.nextHandle = s.nextHandle
  instances : s'.instances.size = s.instances.size

theorem SameFiles.refl (s : Store) : s.SameFiles s := ⟨rfl, rfl, rfl, rfl, rfl⟩

theorem exists_instance (h : s.hasVfs v = true) : ∃ i, s.instances[v]? = some i :=
  ⟨_, Array.getElem?_eq_getElem (decide_eq_true_eq.mp h)⟩

/-- With more file systems, more drivers exist. -/
theorem hasDriver_mono (h : s.instances.size ≤ s'.instances.size) {driver : Driver}
    (hd : s.hasDriver driver = true) : s'.hasDriver driver = true := by
  cases driver with
  | external driver => rfl
  | directory v => exact decide_eq_true (Nat.lt_of_lt_of_le (decide_eq_true_eq.mp hd) h)

/-- Where the file systems are the same, so is what they serve. -/
theorem Served.congr (k : s.Served) (h : s'.instances = s.instances) : s'.Served where
  graphs hi := (k.graphs (h ▸ hi)).imp fun _ => hasDriver_mono (Nat.le_of_eq (by rw [h]))
  directories hi := hasDriver_mono (Nat.le_of_eq (by rw [h])) (k.directories (h ▸ hi))

/-- Another state of one file system. -/
theorem Served.withInstance (k : s.Served) (hi : s.instances[v]? = some i) {j : Instance}
    (hs : s'.instances = s.instances.setIfInBounds v j)
    (hgraph : j.graph.Stocked fun record => s.hasDriver record.driver = true)
    (hdirectories : j.directories = i.directories) : s'.Served := by
  have hsize : s.instances.size ≤ s'.instances.size := Nat.le_of_eq (by simp [hs])
  have hcases : ∀ {u : VfsId} {k : Instance}, s'.instances[u]? = some k →
      k = j ∨ s.instances[u]? = some k := by
    intro u k hu
    rw [hs, Array.getElem?_setIfInBounds] at hu
    split at hu
    · split at hu
      · exact .inl (Option.some.inj hu).symm
      · cases hu
    · exact .inr hu
  constructor
  · intro u k' hu
    rcases hcases hu with rfl | hu
    · exact hgraph.imp fun _ => hasDriver_mono hsize
    · exact (k.graphs hu).imp fun _ => hasDriver_mono hsize
  · intro u k' hu
    rcases hcases hu with rfl | hu
    · rw [hdirectories]
      exact hasDriver_mono hsize (k.directories hi)
    · exact hasDriver_mono hsize (k.directories hu)

theorem Served.withGraph (k : s.Served) (hi : s.instances[v]? = some i) {g : Mount.Graph Record}
    (hg : g.Stocked fun record => s.hasDriver record.driver = true) : (s.withGraph v i g).Served :=
  k.withInstance hi rfl hg rfl

theorem sameFiles_withGraph (s : Store) (v : VfsId) (i : Instance) (g : Mount.Graph Record) :
    s.SameFiles (s.withGraph v i g) :=
  ⟨rfl, rfl, rfl, rfl, by simp [Store.withGraph]⟩

end Store

namespace Action

variable {s : Store} {v : VfsId} {i : Instance} {cpu : Sync.Cpu LockId}

/-- The action comes to an answer of this kind, keeps mount tables in order and does not touch
files. -/
def Serves {α : Type} (act : Action α) (cpu : Sync.Cpu LockId) (s : Store)
    (P : α → Store → Prop) : Prop :=
  ∃ a s', act.Yields cpu s a s' ∧ s'.Served ∧ s.SameFiles s' ∧ P a s'

/-- **Registering** a driver that exists. -/
theorem serves_register (k : s.Served) (hl : cpu.isLocked (.mounts v) = false)
    (hv : s.hasVfs v = true) (path : Path) {driver : Driver} (fs : Option FileSystem)
    (hd : s.hasDriver driver = true) :
    (register v path driver fs).Serves cpu s fun _ _ => True := by
  obtain ⟨i, hi⟩ := Store.exists_instance hv
  have hnew : (newRecord driver fs).Yields cpu s _ _ := yields_newRecord driver fs
  have k' : s.withNewRecord.Served := k.congr rfl
  rw [register]
  cases Path.absolute? path with
  | none =>
      exact ⟨_, _, hnew.bind (yields_pure _), k', ⟨rfl, rfl, rfl, rfl, rfl⟩, trivial⟩
  | some clean =>
      obtain ⟨h, changes, answer, hmount, hg⟩ :=
        (k.graphs hi).mount clean ⟨s.nextRecord, driver, fs⟩ hd
      have hy : (editGraph v fun g => g.mount clean ⟨s.nextRecord, driver, fs⟩).Yields cpu
          s.withNewRecord _ _ := yields_editGraph hl hi hmount
      have hsame : s.SameFiles (s.withNewRecord.withGraph v i h) :=
        ⟨rfl, rfl, rfl, rfl, (s.sameFiles_withGraph v i h).instances⟩
      cases answer with
      | error e =>
          exact ⟨.error e, _, hnew.bind (hy.bind (yields_pure _)), k'.withGraph hi hg, hsame,
            trivial⟩
      | ok node =>
          exact ⟨.ok _, _, hnew.bind (hy.bind ((yields_note _).bind (yields_pure _))),
            k'.withGraph hi hg, hsame, trivial⟩

/-- **Taking back** any registration. -/
theorem serves_unregister (k : s.Served) (hl : cpu.isLocked (.mounts v) = false)
    (hv : s.hasVfs v = true) (registration : Registration) :
    (unregister v registration).Serves cpu s fun _ _ => True := by
  obtain ⟨i, hi⟩ := Store.exists_instance hv
  obtain ⟨h, changes, answer, hdetach, hg, -⟩ :=
    (k.graphs hi).detach registration.node registration.record
  have hy : (editGraph v fun g => g.detach registration.node registration.record).Yields
      cpu s _ _ := yields_editGraph hl hi hdetach
  rw [unregister]
  cases answer with
  | error e =>
      exact ⟨.error e, _, hy.bind (yields_pure _), k.withGraph hi hg, s.sameFiles_withGraph v i h,
        trivial⟩
  | ok record =>
      exact ⟨.ok (), _, hy.bind ((yields_note _).bind (yields_pure _)), k.withGraph hi hg,
        s.sameFiles_withGraph v i h, trivial⟩

/-- **Detaching** the driver at a path: it exists. -/
theorem serves_detach (k : s.Served) (hl : cpu.isLocked (.mounts v) = false)
    (hv : s.hasVfs v = true) (path : Path) : (detach v path).Serves cpu s fun result s' =>
      ∀ record, result = .ok record → s'.hasDriver record.driver = true := by
  obtain ⟨i, hi⟩ := Store.exists_instance hv
  rw [detach]
  cases Path.absolute? path with
  | none => exact ⟨_, s, yields_pure _, k, .refl s, fun record he => by cases he⟩
  | some clean =>
      obtain ⟨h, changes, answer, hunmount, hg, hfound⟩ := (k.graphs hi).unmount clean
      have hy : (editGraph v fun g => g.unmount clean).Yields cpu s _ _ :=
        yields_editGraph hl hi hunmount
      have hsame := s.sameFiles_withGraph v i h
      dsimp only
      cases answer with
      | error e =>
          exact ⟨.error e, _, hy.bind (yields_pure _), k.withGraph hi hg, hsame,
            fun record he => by cases he⟩
      | ok record =>
          refine ⟨.ok record, _, hy.bind ((yields_note _).bind (yields_pure _)),
            k.withGraph hi hg, hsame, fun record' he => ?_⟩
          cases he
          exact Store.hasDriver_mono (Nat.le_of_eq hsame.instances.symm) (hfound record rfl)

/-- **Attaching again** a record whose driver exists, whether it succeeds or not. -/
theorem serves_reattach (k : s.Served) (hl : cpu.isLocked (.mounts v) = false)
    (hv : s.hasVfs v = true) (path : Path) {record : Record}
    (hd : s.hasDriver record.driver = true) :
    (reattach v path record).Serves cpu s fun _ _ => True := by
  obtain ⟨i, hi⟩ := Store.exists_instance hv
  rw [reattach]
  cases Path.absolute? path with
  | none => exact ⟨_, s, yields_pure _, k, .refl s, trivial⟩
  | some clean =>
      obtain ⟨h, changes, answer, hattach, hg⟩ := (k.graphs hi).attach clean hd
      have hy : (editGraph v fun g => g.attach clean record).Yields cpu s _ _ :=
        yields_editGraph hl hi hattach
      dsimp only
      cases answer with
      | error e =>
          exact ⟨.error e, _, hy.bind (yields_pure _), k.withGraph hi hg,
            s.sameFiles_withGraph v i h, trivial⟩
      | ok id =>
          exact ⟨.ok (), _, hy.bind (yields_pure _), k.withGraph hi hg,
            s.sameFiles_withGraph v i h, trivial⟩

/-- **A new type of filesystem**, unless its name is taken. -/
theorem serves_registerFilesystem (k : s.Served) (hl : cpu.isLocked (.filesystems v) = false)
    (hv : s.hasVfs v = true) (fs : FileSystem) :
    (registerFilesystem v fs).Serves cpu s fun _ _ => True := by
  obtain ⟨i, hi⟩ := Store.exists_instance hv
  rcases yields_registerFilesystem hl hi fs with ⟨e, hy⟩ | hy
  · exact ⟨.error e, s, hy, k, .refl s, trivial⟩
  · have hgraph := k.graphs hi
    exact ⟨.ok (), s.withFilesystem v i fs, hy, k.withInstance hi rfl hgraph rfl,
      ⟨rfl, rfl, rfl, rfl, by simp [Store.withFilesystem]⟩, trivial⟩

end Action

end VirtualFs
