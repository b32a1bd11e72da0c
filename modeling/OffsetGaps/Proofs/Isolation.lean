/-
# Open instances do not see each other

If the constructors of a catalogue give instances that share no state, then
what a caller is told through one identifier, from the moment it is issued
until it is released, is what an instance of that function would have told
it that nobody else uses: other identifiers, opened and used and released in
between in any order, leave no mark.

Sharing no state is said of the memory: it can be seen as numbered cells
(`Division`) so that each constructor takes a new cell for its instance,
which reads and writes that cell only (`Division.Fresh`), or makes an
instance without state (`Stateless`). The proof follows one handle through a
run (`Host.Tracked`): its instance is in the table under its name, its state
in the memory is the state `x` of the private instance, and the kernels of
all other handles keep it. Every operation preserves this, with `x` moving
only by the handle's own uses.

Key definitions: `Division.Fresh`, `Stateless`, `Catalogue.Isolated`,
`Host.Tracked`, `ownUses`, `Host.reportsTo`, `OffsetMap.accepted`.
Key theorems: `Host.Tracked.step`, `Host.Tracked.run`,
`Host.Tracked.reportsTo_eq`, `Host.exists_tracked`, `Cells.isolated`,
`Host.handles_isolated`.
-/
import OffsetGaps.Cli.Run
import OffsetGaps.Proofs.Accumulator
import OffsetGaps.Proofs.Sessions

namespace OffsetGaps

variable {σ α β : Type}

/-! ### Instances that share no state -/

/-- A view of memory as numbered cells, those from `free` on not yet taken. -/
structure Division (σ α : Type) where
  free : σ → ℕ
  cell : σ → ℕ → Option α

namespace Division

/-- The kernel has its state in cell `i`, where it behaves as `b`, and leaves
the other cells alone. -/
structure Owns (D : Division σ α) (b : Behaviour α) (i : ℕ) (k : Kernel σ) : Prop where
  own : Behaviour.Agree (fun m a => D.cell m i = some a) (.ofKernel k) b
  others : ∀ cancelled call m j, j ≠ i →
    D.cell (Behaviour.ofKernel k cancelled call m).1 j = D.cell m j
  free : ∀ cancelled call m, D.free (Behaviour.ofKernel k cancelled call m).1 = D.free m

/-- Each time, the constructor takes the next cell, fills it with `init` and
gives an instance that has its state there. -/
structure Fresh (D : Division σ α) (init : α) (b : Behaviour α) (create : Constructor σ) : Prop where
  owns : ∀ m, D.Owns b (D.free m) (create m).1
  start : ∀ m, D.cell (create m).2 (D.free m) = some init
  others : ∀ m j, j < D.free m → D.cell (create m).2 j = D.cell m j
  free : ∀ m, D.free (create m).2 = D.free m + 1

end Division

/-- The constructor gives instances without state: what they answer depends
on the call alone. -/
structure Stateless (reply : Bool → Call → Outcome Value) (create : Constructor σ) : Prop where
  memory : ∀ m, (create m).2 = m
  calls : ∀ m cancelled call m',
    Behaviour.ofKernel (create m).1 cancelled call m' = (m', reply cancelled call)

/-- The constructors of the catalogue give instances of their own, as the
division shows. -/
def Division.Covers (D : Division σ α) (c : Catalogue σ) : Prop :=
  ∀ entry ∈ c.entries,
    (∃ init b, D.Fresh init b entry.2.create) ∨ ∃ reply, Stateless reply entry.2.create

/-- The instances of the catalogue share no state. -/
def Catalogue.Isolated (c : Catalogue σ) : Prop := ∃ (α : Type) (D : Division σ α), D.Covers c

/-- Wherever it is made, an instance of the function starts in `x` and
behaves as `b`. -/
def Function.Mimics (f : Function σ) (b : Behaviour β) (x : β) : Prop :=
  ∀ m, ∃ R : σ → β → Prop, R (f.create m).2 x ∧ Behaviour.Agree R (.ofKernel (f.create m).1) b

theorem Division.Fresh.mimics {D : Division σ α} {init : α} {b : Behaviour α} {f : Function σ}
    (h : D.Fresh init b f.create) : f.Mimics b init := fun m =>
  ⟨_, h.start m, (h.owns m).own⟩

theorem Stateless.mimics {reply : Bool → Call → Outcome Value} {f : Function σ}
    (h : Stateless reply f.create) : f.Mimics (fun cancelled call x => (x, reply cancelled call)) () :=
  fun m => ⟨fun _ _ => True, trivial, fun cancelled call m' x _ => by rw [h.calls]; exact ⟨trivial, rfl⟩⟩

/-- Two behaviours of one function give the same report after the same uses. -/
theorem Function.Mimics.use_after {f : Function σ} {b : Behaviour α} {b' : Behaviour β} {x : α} {y : β}
    (h : f.Mimics b x) (h' : f.Mimics b' y) (m : σ) (name : String) (uses : List Use) (u : Use) :
    (b.use name (b.after name x uses) u).2 = (b'.use name (b'.after name y uses) u).2 := by
  obtain ⟨R, hx, hR⟩ := h m
  obtain ⟨R', hy, hR'⟩ := h' m
  rw [← (hR.use name (hR.after name uses hx) u).2, (hR'.use name (hR'.after name uses hy) u).2]

/-! ### One handle in a run -/

/-- The uses of an identifier, up to the one that releases it. -/
def ownUses (id : String) : List Operation → List Use
  | [] => []
  | .use i u :: rest =>
    if i = id then u :: (if u.releases then [] else ownUses id rest) else ownUses id rest
  | .openInstance _ :: rest => ownUses id rest
  | .openCount :: rest => ownUses id rest

theorem mem_of_mem_ownUses {id : String} {u : Use} : ∀ {ops : List Operation}, u ∈ ownUses id ops →
    .use id u ∈ ops
  | .openInstance _ :: _, hu => List.mem_cons_of_mem _ (mem_of_mem_ownUses hu)
  | .openCount :: _, hu => List.mem_cons_of_mem _ (mem_of_mem_ownUses hu)
  | .use i v :: rest, hu => by
    rw [ownUses] at hu
    by_cases hi : i = id
    · rw [if_pos hi] at hu
      rcases List.mem_cons.mp hu with rfl | hu
      · rw [hi]; exact List.mem_cons_self
      · cases hv : v.releases with
        | true => rw [hv, if_pos rfl] at hu; cases hu
        | false =>
          rw [hv, if_neg (by simp)] at hu
          exact List.mem_cons_of_mem _ (mem_of_mem_ownUses hu)
    · rw [if_neg hi] at hu
      exact List.mem_cons_of_mem _ (mem_of_mem_ownUses hu)

theorem ownUses_cons {id : String} {op : Operation} {rest : List Operation}
    (hop : ∀ u, op = .use id u → u.releases = false) :
    ownUses id (op :: rest) = ownUses id [op] ++ ownUses id rest := by
  cases op with
  | openInstance _ => rfl
  | openCount => rfl
  | use i u =>
    rw [ownUses, ownUses]
    by_cases hi : i = id
    · have hu := hop u (by rw [hi])
      simp [hi, hu, ownUses]
    · rw [if_neg hi, if_neg hi, ownUses, List.nil_append]

namespace Host

/-- What a caller is told of the uses of an identifier, up to the one that
releases it. -/
def reportsTo (id : String) : Host σ → List Operation → List UseReport
  | _, [] => []
  | h, .use i u :: rest =>
    if i = id then
      (h.use i u).2 :: (if u.releases then [] else reportsTo id (h.step (.use i u)) rest)
    else reportsTo id (h.step (.use i u)) rest
  | h, .openInstance name :: rest => reportsTo id (h.step (.openInstance name)) rest
  | h, .openCount :: rest => reportsTo id (h.step .openCount) rest

/-- The kernel's calls keep what `R` says. -/
def Keeps (R : σ → β → Prop) (k : Kernel σ) : Prop :=
  ∀ cancelled call m x, R m x → R (Behaviour.ofKernel k cancelled call m).1 x

theorem Keeps.use {R : σ → β → Prop} {k : Kernel σ} (hk : Keeps R k) (name : String) {m : σ} {x : β}
    (hx : R m x) (u : Use) : R ((Behaviour.ofKernel k).use name m u).1 x := by
  cases u with
  | update cancelled args => exact hk cancelled (.update args) m x hx
  | finalize cancelled => exact hk cancelled .result m x hx
  | discard => exact hx
  | functionOf => exact hx

/-- The constructors keep what `R` says, and so do the kernels they give. -/
def Spares (R : σ → β → Prop) (c : Catalogue σ) : Prop :=
  ∀ entry ∈ c.entries, ∀ m x, R m x → R (entry.2.create m).2 x ∧ Keeps R (entry.2.create m).1

/-- The identifier stands for an instance of `name` that behaves as `b` and
is in state `x`, which `R` reads off the memory and which no other handle
changes. -/
structure Tracked (R : σ → β → Prop) (b : Behaviour β) (id name : String) (h : Host σ) (x : β) :
    Prop where
  handle : ∃ inst, h.handle? id = some ⟨name, inst⟩ ∧ Behaviour.Agree R (.ofKernel inst.kernel) b
  others : ∀ e ∈ h.handles, e.1 ≠ id → Keeps R e.2.inst.kernel
  state : R h.memory x

namespace Tracked

variable {R : σ → β → Prop} {b : Behaviour β} {id name : String} {h : Host σ} {x : β}

/-- A use of another identifier leaves the instance where it was. -/
theorem use_other (ht : Tracked R b id name h x) {i : String} (hne : i ≠ id) (u : Use) :
    Tracked R b id name (h.use i u).1 x := by
  obtain ⟨inst, hinst, hagree⟩ := ht.handle
  refine ⟨⟨inst, (handle_use_ne hne.symm u).trans hinst, hagree⟩,
    fun e he => ht.others e (handles_use_subset he), ?_⟩
  cases hi : h.handle? i with
  | none => rw [use_of_none hi]; exact ht.state
  | some handle =>
    have hkeeps := ht.others _ (mem_handles hi) hne
    rw [(use_of_some hi u).1]
    exact hkeeps.use _ ht.state u

/-- So does opening another instance: its identifier is a new one, and its
constructor and its kernel spare the state. -/
theorem openInstance (ht : Tracked R b id name h x) (hc : Spares R h.catalogue) (other : String) :
    Tracked R b id name (h.openInstance other).1 x := by
  obtain ⟨inst, hinst, hagree⟩ := ht.handle
  rcases openInstance_cases h other with heq | ⟨f, hf, -, hmem, -, hcase⟩
  · rw [heq]; exact ht
  · obtain ⟨hstate, hkeeps⟩ := hc _ hf _ _ ht.state
    rcases hcase with ⟨_, -, hhandles⟩ | ⟨new, made, -, hnew, hkernel, hhandles⟩
    · refine ⟨⟨inst, ?_, hagree⟩, fun e he => ht.others e (hhandles ▸ he), hmem ▸ hstate⟩
      rw [handle?, hhandles]; exact hinst
    · have hne : id ≠ new := fun heq =>
        hnew (heq ▸ List.mem_map.mpr ⟨_, mem_handles hinst, rfl⟩)
      refine ⟨⟨inst, ?_, hagree⟩, fun e he hid => ?_, hmem ▸ hstate⟩
      · have hbeq : (id == new) = false := by simpa using hne
        rw [handle?, hhandles, List.lookup_cons, hbeq]; exact hinst
      · rw [hhandles] at he
        rcases List.mem_cons.mp he with rfl | he
        · rw [hkernel]; exact hkeeps
        · exact ht.others e he hid

/-- A use of the identifier itself is answered by the private instance. -/
theorem use_report (ht : Tracked R b id name h x) (u : Use) :
    (h.use id u).2 = (b.use name x u).2 := by
  obtain ⟨inst, hinst, hagree⟩ := ht.handle
  rw [(use_of_some hinst u).2]
  exact (hagree.use name ht.state u).2

/-- A use that does not release the identifier moves the private instance. -/
theorem use_own (ht : Tracked R b id name h x) {u : Use} (hu : u.releases = false) :
    Tracked R b id name (h.use id u).1 (b.use name x u).1 := by
  obtain ⟨inst, hinst, hagree⟩ := ht.handle
  refine ⟨⟨inst, (handle_use_of_keeps hu).trans hinst, hagree⟩,
    fun e he => ht.others e (handles_use_subset he), ?_⟩
  rw [(use_of_some hinst u).1]
  exact (hagree.use name ht.state u).1

/-- **One operation.** Unless it releases the identifier, the instance stays
tracked, and only the identifier's own use moves it. -/
theorem step (ht : Tracked R b id name h x) (hc : Spares R h.catalogue) {op : Operation}
    (hkeep : ∀ u, op = .use id u → u.releases = false) :
    Tracked R b id name (h.step op) (b.after name x (ownUses id [op])) := by
  cases op with
  | openInstance other => exact ht.openInstance hc other
  | openCount => exact ht
  | use i u =>
    rw [ownUses]
    by_cases hi : i = id
    · obtain rfl := hi.symm
      have hu := hkeep u rfl
      rw [if_pos rfl, hu, if_neg (by simp)]
      exact ht.use_own hu
    · rw [if_neg hi]
      exact ht.use_other hi u

/-- **The simulation.** Whatever else is opened, used and released, the
reports of the identifier's uses, until it is released, are those of the
private instance. -/
theorem reportsTo_eq : ∀ (ops : List Operation) {h : Host σ} {x : β}, Tracked R b id name h x →
    Spares R h.catalogue → h.reportsTo id ops = b.reports name x (ownUses id ops)
  | [], _, _, _, _ => rfl
  | .openInstance other :: rest, h, x, ht, hc => by
    rw [Host.reportsTo, ownUses]
    exact reportsTo_eq rest (ht.openInstance hc other) (by rw [step_catalogue]; exact hc)
  | .openCount :: rest, h, x, ht, hc => by
    rw [Host.reportsTo, ownUses]
    exact reportsTo_eq rest ht hc
  | .use i u :: rest, h, x, ht, hc => by
    have hc' : Spares R (h.step (.use i u)).catalogue := by rw [step_catalogue]; exact hc
    rw [Host.reportsTo, ownUses]
    by_cases hi : i = id
    · obtain rfl := hi.symm
      rw [if_pos rfl, if_pos rfl, Behaviour.reports, ht.use_report u]
      congr 1
      cases hu : u.releases with
      | true => simp [Behaviour.reports]
      | false =>
        simp only [Bool.false_eq_true, if_false]
        exact reportsTo_eq rest (ht.use_own hu) hc'
    · rw [if_neg hi, if_neg hi]
      exact reportsTo_eq rest (ht.use_other hi u) hc'

/-- **A run.** As long as the identifier is not released, it stays tracked. -/
theorem run : ∀ (ops : List Operation) {h : Host σ} {x : β}, Tracked R b id name h x →
    Spares R h.catalogue → (∀ u, .use id u ∈ ops → u.releases = false) →
    Tracked R b id name (h.after ops) (b.after name x (ownUses id ops))
  | [], _, _, ht, _, _ => ht
  | op :: rest, h, x, ht, hc, hkeep => by
    have hop : ∀ u, op = .use id u → u.releases = false := by
      rintro u rfl
      exact hkeep u List.mem_cons_self
    have hc' : Spares R (h.step op).catalogue := by rw [step_catalogue]; exact hc
    rw [ownUses_cons hop, Behaviour.after_append]
    exact run rest (ht.step hc hop) hc' fun u hu => hkeep u (List.mem_cons_of_mem _ hu)

end Tracked

end Host

/-! ### Opening an instance -/

namespace Division

/-- The kernel takes no cell and touches none from `n` on. -/
def Below (D : Division σ α) (n : ℕ) (k : Kernel σ) : Prop :=
  ∀ cancelled call m, D.free (Behaviour.ofKernel k cancelled call m).1 = D.free m ∧
    ∀ i, n ≤ i → D.cell (Behaviour.ofKernel k cancelled call m).1 i = D.cell m i

theorem Below.mono {D : Division σ α} {n n' : ℕ} {k : Kernel σ} (h : D.Below n k) (hn : n ≤ n') :
    D.Below n' k := fun cancelled call m =>
  ⟨(h cancelled call m).1, fun i hi => (h cancelled call m).2 i (by omega)⟩

theorem Below.free_use {D : Division σ α} {n : ℕ} {k : Kernel σ} (h : D.Below n k) (name : String)
    (m : σ) (u : Use) : D.free ((Behaviour.ofKernel k).use name m u).1 = D.free m := by
  cases u with
  | update cancelled args => exact (h cancelled (.update args) m).1
  | finalize cancelled => exact (h cancelled .result m).1
  | discard => rfl
  | functionOf => rfl

theorem Owns.below {D : Division σ α} {b : Behaviour α} {i : ℕ} {k : Kernel σ} (h : D.Owns b i k) :
    D.Below (i + 1) k := fun cancelled call m =>
  ⟨h.free cancelled call m, fun j hj => h.others cancelled call m j (by omega)⟩

end Division

theorem Stateless.below {reply : Bool → Call → Outcome Value} {create : Constructor σ}
    (h : Stateless reply create) (D : Division σ α) (n : ℕ) (m : σ) : D.Below n (create m).1 := by
  intro cancelled call m'
  rw [h.calls]
  exact ⟨rfl, fun _ _ => rfl⟩

namespace Host

def Settled (D : Division σ α) (h : Host σ) : Prop :=
  ∀ e ∈ h.handles, D.Below (D.free h.memory) e.2.inst.kernel

variable {D : Division σ α} {h : Host σ}

theorem Settled.step (hs : Settled D h) (hc : D.Covers h.catalogue) (op : Operation) :
    Settled D (h.step op) := by
  cases op with
  | openCount => exact hs
  | use id u =>
    have hfree : D.free (h.use id u).1.memory = D.free h.memory := by
      cases hid : h.handle? id with
      | none => rw [use_of_none hid]
      | some handle =>
        rw [(use_of_some hid u).1]
        exact (hs _ (mem_handles hid)).free_use _ _ u
    intro e he
    show D.Below (D.free (h.use id u).1.memory) e.2.inst.kernel
    rw [hfree]
    exact hs e (handles_use_subset he)
  | openInstance name =>
    intro e he
    change e ∈ (h.openInstance name).1.handles at he
    show D.Below (D.free (h.openInstance name).1.memory) e.2.inst.kernel
    rcases openInstance_cases h name with heq | ⟨f, hf, -, hmem, -, hcase⟩
    · rw [heq] at he ⊢
      exact hs e he
    · -- the new kernel touches the cell that was the next one, the others keep below it
      have hnew : D.free h.memory ≤ D.free (f.create h.memory).2 ∧
          D.Below (D.free (f.create h.memory).2) (f.create h.memory).1 := by
        rcases hc _ hf with ⟨init, b, hfresh⟩ | ⟨reply, hless⟩
        · rw [hfresh.free]
          exact ⟨by omega, (hfresh.owns h.memory).below⟩
        · rw [hless.memory]
          exact ⟨le_rfl, hless.below D _ _⟩
      rw [hmem]
      rcases hcase with ⟨_, -, hhandles⟩ | ⟨id, inst, -, -, hkernel, hhandles⟩
      · rw [hhandles] at he
        exact (hs e he).mono hnew.1
      · rw [hhandles] at he
        rcases List.mem_cons.mp he with rfl | he
        · rw [hkernel]; exact hnew.2
        · exact (hs e he).mono hnew.1

theorem settled_after : ∀ (ops : List Operation) {h : Host σ}, Settled D h → D.Covers h.catalogue →
    Settled D (h.after ops) ∧ (h.after ops).catalogue = h.catalogue
  | [], _, hs, _ => ⟨hs, rfl⟩
  | op :: rest, h, hs, hc => by
    have hcat := step_catalogue h op
    obtain ⟨hs', hcat'⟩ := settled_after rest (hs.step hc op) (by rw [hcat]; exact hc)
    exact ⟨hs', hcat'.trans hcat⟩

/-- A taken cell is kept by a kernel that does not touch it. -/
theorem keeps_cell {i : ℕ} {k : Kernel σ}
    (hk : ∀ cancelled call m, D.free (Behaviour.ofKernel k cancelled call m).1 = D.free m ∧
      D.cell (Behaviour.ofKernel k cancelled call m).1 i = D.cell m i) :
    Keeps (fun m a => D.cell m i = some a ∧ i < D.free m) k := by
  rintro cancelled call m a ⟨hcell, hi⟩
  obtain ⟨hfree, hsame⟩ := hk cancelled call m
  rw [hfree, hsame]
  exact ⟨hcell, hi⟩

/-- Constructors leave taken cells alone, and so do the kernels they give. -/
theorem spares_cell {c : Catalogue σ} (hc : D.Covers c) (i : ℕ) :
    Spares (fun m a => D.cell m i = some a ∧ i < D.free m) c := by
  rintro f hf m a ⟨hcell, hi⟩
  rcases hc _ hf with ⟨init, b, hfresh⟩ | ⟨reply, hless⟩
  · refine ⟨⟨by rw [hfresh.others m i hi]; exact hcell, by rw [hfresh.free]; omega⟩, ?_⟩
    exact keeps_cell fun cancelled call m' =>
      ⟨(hfresh.owns m).free cancelled call m', (hfresh.owns m).others cancelled call m' i (by omega)⟩
  · refine ⟨by rw [hless.memory]; exact ⟨hcell, hi⟩, ?_⟩
    exact keeps_cell fun cancelled call m' => by rw [hless.calls]; exact ⟨rfl, rfl⟩

/-- **A new handle is tracked from the start**, by the cell that its instance
has taken, if it has one. -/
theorem exists_tracked (hs : Settled D h) (hc : D.Covers h.catalogue) {name id : String}
    (hopen : (h.openInstance name).2 = .value id) :
    ∃ (β : Type) (R : σ → β → Prop) (b : Behaviour β) (x : β) (f : Function σ),
      h.catalogue.find? name = some f ∧ f.Mimics b x ∧ Spares R h.catalogue ∧
        Tracked R b id name (h.openInstance name).1 x := by
  rcases openInstance_cases h name with heq | ⟨f, hf, hfind, hmem, -, hcase⟩
  · rw [heq] at hopen; cases hopen
  rcases hcase with ⟨_, habort, -⟩ | ⟨id', inst, hid, -, hkernel, hhandles⟩
  · rw [hopen] at habort; cases habort
  rw [hopen] at hid
  cases hid
  have hhandle : (h.openInstance name).1.handle? id = some ⟨name, inst⟩ := by
    rw [handle?, hhandles, List.lookup_cons_self]
  have hold : ∀ e ∈ (h.openInstance name).1.handles, e.1 ≠ id → e ∈ h.handles := by
    intro e he hne
    rw [hhandles] at he
    rcases List.mem_cons.mp he with rfl | he
    · exact absurd rfl hne
    · exact he
  rcases hc _ hf with ⟨init, b, hfresh⟩ | ⟨reply, hless⟩
  · have howns := hfresh.owns h.memory
    refine ⟨α, fun m a => D.cell m (D.free h.memory) = some a ∧ D.free h.memory < D.free m, b, init, f,
      hfind, hfresh.mimics, spares_cell hc _, ⟨inst, hhandle, ?_⟩, fun e he hne => ?_, ?_⟩
    · rw [hkernel]
      rintro cancelled call m a ⟨hcell, hi⟩
      obtain ⟨hnext, hend⟩ := howns.own cancelled call m a hcell
      exact ⟨⟨hnext, by rw [howns.free]; exact hi⟩, hend⟩
    · exact keeps_cell fun cancelled call m =>
        ⟨(hs e (hold e he hne) cancelled call m).1, (hs e (hold e he hne) cancelled call m).2 _ le_rfl⟩
    · rw [hmem, hfresh.free]
      exact ⟨hfresh.start h.memory, by omega⟩
  · refine ⟨Unit, fun _ _ => True, fun cancelled call x => (x, reply cancelled call), (), f, hfind,
      hless.mimics, fun _ _ _ _ _ => ⟨trivial, fun _ _ _ _ _ => trivial⟩,
      ⟨inst, hhandle, ?_⟩, fun _ _ _ _ _ _ _ _ => trivial, trivial⟩
    rw [hkernel]
    intro cancelled call m x _
    rw [hless.calls]
    exact ⟨trivial, rfl⟩

/-- The same of a handle that is issued in a run from an empty table. -/
theorem exists_tracked_after (hempty : h.handles = []) (hisolated : h.catalogue.Isolated)
    {before : List Operation} {name id : String}
    (hopen : ((h.after before).openInstance name).2 = .value id) :
    ∃ (β : Type) (R : σ → β → Prop) (b : Behaviour β) (x : β) (f : Function σ),
      h.catalogue.find? name = some f ∧ f.Mimics b x ∧
        Spares R ((h.after before).openInstance name).1.catalogue ∧
        Tracked R b id name ((h.after before).openInstance name).1 x := by
  obtain ⟨α, D, hc⟩ := hisolated
  have hstart : Settled D h := fun e he => by rw [hempty] at he; cases he
  obtain ⟨hs, hcat⟩ := settled_after before hstart hc
  have hopened : ((h.after before).openInstance name).1.catalogue = h.catalogue :=
    (step_catalogue _ (.openInstance name)).trans hcat
  rw [hopened, ← hcat]
  exact exists_tracked hs (by rw [hcat]; exact hc) hopen

end Host

/-- A private instance of a function reports what its behaviour says. -/
theorem Function.Mimics.reports_instance {f : Function σ} {b : Behaviour β} {x : β} (h : f.Mimics b x)
    {c : Catalogue σ} {name : String} (hf : c.find? name = some f) (l : Ledger σ) :
    ∃ inst l', c.instantiate name l = .ok (inst, l') ∧ ∀ uses : List Use,
      (Behaviour.ofInstance inst).reports name l' uses = b.reports name x uses := by
  obtain ⟨inst, l', hok, hkernel, henv⟩ := Catalogue.instantiate_of_find hf l
  obtain ⟨R, hx, hR⟩ := h l.env.memory
  refine ⟨inst, l', hok, fun uses => ?_⟩
  have hmemory : l'.env.memory = (f.create l.env.memory).2 := by rw [henv]
  rw [inst.agree_kernel.reports name uses hmemory, hkernel, hR.reports name uses hx]

/-! ### Instances in cells -/

namespace Cells

def division (α : Type) : Division (Cells α) α := ⟨Array.size, fun m i => m[i]?⟩

theorem ofKernel_kernel (step : Call → α → α × Outcome Value) (i : ℕ) (cancelled : Bool) (call : Call)
    (m : Cells α) : Behaviour.ofKernel (kernel step i) cancelled call m =
      match m[i]? with
      | none => (m, .abort "no such cell")
      | some a => (m.setIfInBounds i (step call a).1, (step call a).2) := by
  simp only [Behaviour.ofKernel, Kernel.run, kernel]
  cases m[i]? <;> rfl

theorem kernel_owns (step : Call → α → α × Outcome Value) (i : ℕ) :
    (division α).Owns (fun _ => step) i (kernel step i) where
  own cancelled call m a h := by
    change m[i]? = some a at h
    obtain ⟨hi, -⟩ := Array.getElem?_eq_some_iff.mp h
    rw [ofKernel_kernel, h]
    exact ⟨Array.getElem?_setIfInBounds_self_of_lt hi, rfl⟩
  others cancelled call m j hj := by
    rw [ofKernel_kernel]
    cases m[i]? with
    | none => rfl
    | some a => exact Array.getElem?_setIfInBounds_ne hj.symm
  free cancelled call m := by
    rw [ofKernel_kernel]
    cases m[i]? with
    | none => rfl
    | some a => exact Array.size_setIfInBounds

theorem fresh_fresh (init : α) (step : Call → α → α × Outcome Value) :
    (division α).Fresh init (fun _ => step) (fresh init step) where
  owns m := kernel_owns step m.size
  start m := Array.getElem?_push_size
  others m j hj := by
    have hne : j ≠ m.size := Nat.ne_of_lt hj
    show (m.push init)[j]? = m[j]?
    rw [Array.getElem?_push, if_neg hne]
  free m := Array.size_push init

/-- Functions that take a new cell for each instance share nothing. -/
theorem isolated {c : Catalogue (Cells α)}
    (h : ∀ entry ∈ c.entries, ∃ init step, entry.2.create = fresh init step) : c.Isolated := by
  refine ⟨α, division α, fun f hf => Or.inl ?_⟩
  obtain ⟨init, step, hcreate⟩ := h f hf
  exact ⟨init, fun _ => step, hcreate ▸ fresh_fresh init step⟩

end Cells

theorem isolated_newHost (strict : Bool) (supply : Supply) (complaint : List Char → String) :
    (newHost strict supply complaint).catalogue.Isolated := by
  refine Cells.isolated fun f hf => ⟨.empty, OffsetMap.step strict, ?_⟩
  rw [List.mem_singleton.mp hf]
  rfl

/-! ### The offset map -/

namespace OffsetMap

def accepted (strict : Bool) (uses : List Use) : List (Option Int64) :=
  uses.filterMap fun
    | .update _ args => (readRow strict args).toOption
    | _ => none

/-- What an instance does with its accumulator. -/
def behaviour (strict : Bool) : Behaviour Accumulator := fun _ => step strict

variable {strict : Bool}

theorem mimics {f : Function (Cells Accumulator)} (hf : f.create = constructor strict) :
    f.Mimics (behaviour strict) .empty := by
  have hfresh : (Cells.division Accumulator).Fresh .empty (behaviour strict) f.create := by
    rw [hf]
    exact Cells.fresh_fresh _ _
  exact hfresh.mimics

/-- A use that does not release the instance adds the value it carries, if
it carries one. -/
theorem use_state (name : String) (a : Accumulator) {u : Use} (hu : u.releases = false) :
    ((behaviour strict).use name a u).1 = a.after ((accepted strict [u]).map .add) := by
  cases u with
  | update cancelled args =>
    show (step strict (.update args) a).1 = _
    cases hrow : readRow strict args with
    | error e => simp [step, accepted, hrow, Except.toOption, Accumulator.after]
    | ok value =>
      simp [step, accepted, hrow, Except.toOption, Accumulator.after, Accumulator.serve]
  | finalize cancelled => cases hu
  | discard => cases hu
  | functionOf => rfl

theorem after_eq (name : String) : ∀ (uses : List Use) (a : Accumulator),
    (∀ u ∈ uses, u.releases = false) →
      (behaviour strict).after name a uses = a.after ((accepted strict uses).map .add)
  | [], _, _ => rfl
  | u :: rest, a, h => by
    have hsplit : accepted strict (u :: rest) = accepted strict [u] ++ accepted strict rest :=
      List.filterMap_append (l := [u])
    show (behaviour strict).after name ((behaviour strict).use name a u).1 rest = _
    rw [use_state name a (h u List.mem_cons_self),
      after_eq name rest _ fun u hu => h u (List.mem_cons_of_mem _ hu), hsplit, List.map_append]
    exact List.foldl_append.symm

/-- An instance that has not been asked for its layout answers a row with what
reading the row says. -/
theorem use_update (name : String) {uses : List Use} (hkeep : ∀ u ∈ uses, u.releases = false)
    (cancelled : Bool) (args : List Value) :
    ((behaviour strict).use name ((behaviour strict).after name .empty uses) (.update cancelled args)).2 =
      .updated (.ofExcept ((readRow strict args).map fun _ => ())) := by
  rw [after_eq name uses _ hkeep, Accumulator.empty_after (Accumulator.finalize_not_mem_map _)]
  show UseReport.updated ((step strict (.update args) _).2.map _) = _
  cases hrow : readRow strict args with
  | error e => simp only [step, hrow]; rfl
  | ok value => cases value <;> simp only [step, hrow] <;> rfl

/-- It answers the request for its layout from the values of the rows it
accepted. -/
theorem use_finalize (name : String) {uses : List Use} (hkeep : ∀ u ∈ uses, u.releases = false)
    (cancelled : Bool) :
    ((behaviour strict).use name ((behaviour strict).after name .empty uses) (.finalize cancelled)).2 =
      .finalized (.ofExcept (((Accumulator.collect (accepted strict uses)).map Value.layout).mapError
        HostError.accumulator)) := by
  rw [after_eq name uses _ hkeep]
  rfl

end OffsetMap

namespace Host

/-- **Handles are isolated.** Let the functions of a host share no state. An
identifier issued in any run is answered, through any further operations and
until it is released, as a private instance of the function answers that is
given the identifier's own uses and nothing else; and all that time it stands
for the name it was opened by. An open offset map answers each row with what
reading the row says, and the request for its layout with the layout of the
values accepted under its identifier. -/
theorem handles_isolated :
    (∀ {σ : Type} (h : Host σ) (before : List Operation) (name id : String),
      h.handles = [] → h.catalogue.Isolated → ((h.after before).openInstance name).2 = .value id →
      let opened := ((h.after before).openInstance name).1
      (∀ (rest : List Operation) (l : Ledger σ),
        ∃ inst l', h.catalogue.instantiate name l = .ok (inst, l') ∧
          opened.reportsTo id rest = (Behaviour.ofInstance inst).reports name l' (ownUses id rest)) ∧
      ∀ during : List Operation, (∀ u, .use id u ∈ during → u.releases = false) →
        (opened.after during).functionOf id = some name) ∧
    ∀ (strict : Bool) (h : Host (Cells Accumulator)) (before during : List Operation)
      (name id : String) (f : Function (Cells Accumulator)),
      h.handles = [] → h.catalogue.Isolated → h.catalogue.find? name = some f →
      f.create = OffsetMap.constructor strict →
      ((h.after before).openInstance name).2 = .value id →
      (∀ u, .use id u ∈ during → u.releases = false) →
      let held := ((h.after before).openInstance name).1.after during
      (∀ cancelled args, (held.use id (.update cancelled args)).2 =
        .updated (.ofExcept ((OffsetMap.readRow strict args).map fun _ => ()))) ∧
      ∀ cancelled, (held.use id (.finalize cancelled)).2 = .finalized (.ofExcept
        (((Accumulator.collect (OffsetMap.accepted strict (ownUses id during))).map
          Value.layout).mapError HostError.accumulator)) := by
  refine ⟨fun h before name id hempty hisolated hopen => ⟨fun rest l => ?_, fun during hkeep => ?_⟩,
    fun strict h before during name id f hempty hisolated hfind hcreate hopen hkeep => ?_⟩
  · obtain ⟨β, R, b, x, f, hfind, hmimics, hspares, htracked⟩ :=
      exists_tracked_after hempty hisolated hopen
    obtain ⟨inst, l', hok, hreports⟩ := hmimics.reports_instance hfind l
    exact ⟨inst, l', hok, by rw [hreports]; exact htracked.reportsTo_eq rest hspares⟩
  · obtain ⟨β, R, b, x, f, -, -, hspares, htracked⟩ := exists_tracked_after hempty hisolated hopen
    obtain ⟨inst, hinst, -⟩ := (htracked.run during hspares hkeep).handle
    rw [functionOf, hinst]
    rfl
  · obtain ⟨β, R, b, x, f', hfind', hmimics, hspares, htracked⟩ :=
      exists_tracked_after hempty hisolated hopen
    rw [hfind] at hfind'
    cases hfind'
    have hheld := htracked.run during hspares hkeep
    have hown : ∀ u ∈ ownUses id during, u.releases = false :=
      fun u hu => hkeep u (mem_of_mem_ownUses hu)
    -- both behaviours are those of the one function, so the offset map's may answer
    have hanswer := fun u =>
      hmimics.use_after (OffsetMap.mimics hcreate) h.memory name (ownUses id during) u
    refine ⟨fun cancelled args => ?_, fun cancelled => ?_⟩
    · rw [hheld.use_report, hanswer, OffsetMap.use_update name hown]
    · rw [hheld.use_report, hanswer, OffsetMap.use_finalize name hown]

/-- Two offset maps are used in turns, and the first is closed before the
second. The second gives the layout of its own value. -/
theorem handles_isolated_in_turns :
    let name := "wasmati.getBufferLocationMap"
    let first := "00000000-0000-4000-8000-000000000001"
    let second := "00000000-0000-4000-8000-000000000002"
    let during : List Operation := [.use first (.update false [.integer (.int64 16)]),
      .use second (.update false [.integer (.int64 8)]), .use first (.finalize false)]
    let held := (((newHost false {}).after [.openInstance name]).openInstance name).1.after during
    (held.use second (.finalize false)).2 = .finalized (.value (.layout ⟨[("@0", 8)]⟩)) ∧
      held.functionOf second = some name := by
  intro name first second during held
  have hopen : (((newHost false {}).after [.openInstance name]).openInstance name).2 =
      .value second := openInstance_value rfl (by decide +kernel)
  have hkeep : ∀ u, Operation.use second u ∈ during → u.releases = false := by
    intro u hu
    simp only [during, List.mem_cons, Operation.use.injEq, List.not_mem_nil, or_false] at hu
    rcases hu with ⟨-, rfl⟩ | ⟨-, rfl⟩ | ⟨h, -⟩
    · rfl
    · rfl
    · exact absurd h (by decide)
  have hisolated := isolated_newHost false {} fun _ => ""
  obtain ⟨-, hlayout⟩ := handles_isolated.2 false (newHost false {}) [.openInstance name] during name
    second _ rfl hisolated rfl rfl hopen hkeep
  obtain ⟨-, hfunction⟩ := handles_isolated.1 (newHost false {}) [.openInstance name] name second rfl
    hisolated hopen
  refine ⟨?_, hfunction during hkeep⟩
  have hvalues : OffsetMap.accepted false (ownUses second during) = [some 8] := by decide +kernel
  have hcollect : Accumulator.collect [some 8] = .ok ⟨[("@0", 8)]⟩ := by cbv
  rw [hlayout, hvalues, hcollect]
  rfl

end Host
end OffsetGaps
