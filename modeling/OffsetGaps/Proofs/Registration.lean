/-
# The first registration of a name wins

Functions are registered one after another, with any descriptors, and with or
without a constructor. A registration is refused if it is not valid, or if one
before it has succeeded under the same qualified name; what is refused changes
nothing. So a catalogue that was empty holds exactly the functions that were
registered with success (`Host.registered`), each under its own qualified
name, and no two under one name (`Catalogue.Indexed`).

From this all else follows: a look-up finds the one function with the name,
and the functions have one order by name only, from whatever order they are
sorted. Registrations whose names are all different cannot refuse each other,
so their order does not matter.

Key definitions: `Registration`, `Host.Registering`,
`Host.afterRegistrations`, `Host.registered`, `Catalogue.Indexed`.
Key theorems: `Host.register_registering`, `Host.entries_afterRegistrations`,
`Host.indexed_register`, `Catalogue.Indexed.eq_functions`,
`Host.registered_of_nodup`, `Host.first_registration_wins`.
-/
import Mathlib.Data.List.Nodup
import OffsetGaps.Host.Scripted
import OffsetGaps.Proofs.Bytes
import OffsetGaps.Proofs.Sessions

namespace OffsetGaps

variable {σ : Type}

def Function.name (f : Function σ) : String := f.descriptor.qualifiedName

/-- A function as it is registered, under its name. -/
def Function.entry (f : Function σ) : String × Function σ := (f.name, f)

/-- What is asked to be registered. -/
structure Registration (σ : Type) where
  descriptor : Descriptor
  /-- The constructor, if there is one. -/
  create : Option (Constructor σ)

namespace Registration

/-- The qualified name that is asked for. -/
def name (r : Registration σ) : String := r.descriptor.qualifiedName

/-- The function to be registered. A registration that lacks a name or a
constructor has none. -/
def function? (r : Registration σ) : Option (Function σ) :=
  match r.create with
  | some create => if r.descriptor.name = "" then none else some ⟨r.descriptor, create⟩
  | none => none

theorem function_eq_none_iff {r : Registration σ} :
    r.function? = none ↔ r.descriptor.name = "" ∨ r.create = none := by
  unfold function?
  cases r.create with
  | none => simp
  | some create => by_cases hname : r.descriptor.name = "" <;> simp [hname]

theorem of_function_eq_some {r : Registration σ} {f : Function σ} (h : r.function? = some f) :
    r.create = some f.create ∧ r.descriptor.name ≠ "" ∧ f.descriptor = r.descriptor := by
  unfold function? at h
  cases hcreate : r.create with
  | none => simp [hcreate] at h
  | some create =>
    by_cases hname : r.descriptor.name = ""
    · simp [hcreate, hname] at h
    · have hf : (⟨r.descriptor, create⟩ : Function σ) = f := by simpa [hcreate, hname] using h
      subst hf
      exact ⟨rfl, hname, rfl⟩

theorem name_of_function {r : Registration σ} {f : Function σ} (h : r.function? = some f) :
    f.name = r.name := by
  unfold Function.name name
  rw [(of_function_eq_some h).2.2]

end Registration

namespace Host

/-- The host after some registrations. -/
def afterRegistrations (h : Host σ) (rs : List (Registration σ)) : Host σ :=
  rs.foldl (fun h r => (h.register r.descriptor r.create).1) h

/-- The functions whose registration succeeds, in order. -/
def registered : Host σ → List (Registration σ) → List (Function σ)
  | _, [] => []
  | h, r :: rest =>
    match h.register r.descriptor r.create with
    | (g, .value _) => r.function?.toList ++ registered g rest
    | (g, _) => registered g rest

/-- What a registration can come to: it is not valid, or its name is taken, or
the function stands behind those registered before, and the log may tell of
it. -/
inductive Registering (h : Host σ) (r : Registration σ) : Host σ × Outcome Unit → Prop where
  | invalid (hf : r.function? = none) : Registering h r (h, .failure (.invalidFunction r.name))
  | taken {f : Function σ} (hf : r.function? = some f)
    (htaken : r.name ∈ h.catalogue.entries.map Prod.fst) :
    Registering h r (h, .failure (.duplicateFunction r.name))
  | added {f : Function σ} (hf : r.function? = some f)
    (hfree : r.name ∉ h.catalogue.entries.map Prod.fst) (log : Array LogRecord) :
    Registering h r
      ({ h with
          catalogue := { h.catalogue with entries := h.catalogue.entries ++ [f.entry] }
          ledger := { h.ledger with log } }, .value ())

end Host

/-! ### One registration -/

namespace Catalogue

variable {c : Catalogue σ} {n : String}

theorem isSome_find_iff : (c.find? n).isSome = true ↔ n ∈ c.entries.map Prod.fst := by
  rw [find?, List.lookup_isSome_iff, List.mem_map]
  exact exists_congr fun _ => and_congr_right fun _ => beq_iff_eq.trans eq_comm

theorem lookup_entries (fs : List (Function σ)) (n : String) :
    (fs.map Function.entry).lookup n = fs.find? fun f => f.name == n := by
  induction fs with
  | nil => rfl
  | cons f fs ih =>
    rw [List.map_cons, Function.entry, List.lookup_cons, List.find?_cons, ih, BEq.comm]

end Catalogue

namespace Host

theorem register_registering (h : Host σ) (r : Registration σ) :
    h.Registering r (h.register r.descriptor r.create) := by
  cases hf : r.function? with
  | none =>
    have hregister : h.register r.descriptor r.create = (h, .failure (.invalidFunction r.name)) := by
      unfold register Catalogue.register Registration.name
      rcases Registration.function_eq_none_iff.mp hf with hname | hcreate
      · cases r.create <;> simp [hname]
      · simp [hcreate]
    rw [hregister]
    exact .invalid hf
  | some f =>
    obtain ⟨hcreate, hname, hdescriptor⟩ := Registration.of_function_eq_some hf
    have hempty : r.descriptor.name.isEmpty = false := by simpa using hname
    by_cases htaken : (h.catalogue.find? r.name).isSome = true
    · have hregister : h.register r.descriptor r.create =
          (h, .failure (.duplicateFunction r.name)) := by
        unfold Registration.name at htaken ⊢
        simp [register, Catalogue.register, hcreate, hempty, htaken]
      rw [hregister]
      exact .taken hf (Catalogue.isSome_find_iff.mp htaken)
    · have hregister : ∃ log, h.register r.descriptor r.create =
          ({ h with
              catalogue := { h.catalogue with entries := h.catalogue.entries ++ [f.entry] }
              ledger := { h.ledger with log } }, .value ()) := by
        have hfun : ((r.descriptor.qualifiedName, ⟨r.descriptor, f.create⟩) : String × Function σ) =
            f.entry := by rw [← hdescriptor]; rfl
        unfold Registration.name at htaken
        simp [register, Catalogue.register, hcreate, hempty, htaken, hfun]
      obtain ⟨log, hlog⟩ := hregister
      rw [hlog]
      exact .added hf (fun hmem => htaken (Catalogue.isSome_find_iff.mpr hmem)) log

/-! ### Many registrations -/

variable {h : Host σ} {r : Registration σ}

/-- A registration that is refused changes nothing. -/
theorem register_unchanged (hfail : (h.register r.descriptor r.create).2 ≠ .value ()) :
    (h.register r.descriptor r.create).1 = h := by
  have hcases := h.register_registering r
  generalize h.register r.descriptor r.create = result at hcases hfail
  cases hcases with
  | invalid _ => rfl
  | taken _ _ => rfl
  | added _ _ _ => simp at hfail

theorem register_eq_invalid_iff (h : Host σ) (r : Registration σ) :
    (h.register r.descriptor r.create).2 = .failure (.invalidFunction r.name) ↔
      r.descriptor.name = "" ∨ r.create = none := by
  rw [← Registration.function_eq_none_iff]
  have hcases := h.register_registering r
  generalize h.register r.descriptor r.create = result at hcases
  cases hcases with
  | invalid hf => simp [hf]
  | taken hf _ => simp [hf]
  | added hf _ _ => simp [hf]

/-- A valid registration is refused exactly if its name is taken. -/
theorem register_of_valid (h : Host σ) (hname : r.descriptor.name ≠ "") (hcreate : r.create ≠ none) :
    ((h.register r.descriptor r.create).2 = .failure (.duplicateFunction r.name) ↔
        r.name ∈ h.catalogue.entries.map Prod.fst) ∧
      ((h.register r.descriptor r.create).2 = .value () ↔
        r.name ∉ h.catalogue.entries.map Prod.fst) := by
  have hvalid : r.function? ≠ none := by
    simp [Registration.function_eq_none_iff, hname, hcreate]
  have hcases := h.register_registering r
  generalize h.register r.descriptor r.create = result at hcases
  cases hcases with
  | invalid hf => exact absurd hf hvalid
  | taken _ htaken => simpa using htaken
  | added _ hfree _ => simpa using hfree

/-- What is found under a name is looked up and makes the instances. -/
theorem lookup_of_find {n : String} {f : Function σ} (hfound : h.catalogue.find? n = some f) :
    h.catalogue.lookup n = .ok f ∧
      ∃ g inst, h.instantiate n = (g, .value inst) ∧
        inst.kernel = (f.create h.memory).1 ∧ g.memory = (f.create h.memory).2 := by
  obtain ⟨inst, l, hok, hkernel, henv⟩ := Catalogue.instantiate_of_find hfound h.ledger
  have hmade : h.instantiate n = ({ h with ledger := l }, .value inst) := by
    unfold instantiate
    rw [hok]
  refine ⟨by simp only [Catalogue.lookup, hfound], _, inst, hmade, hkernel, ?_⟩
  exact congrArg Env.memory henv

theorem lookup_of_missing {n : String} (hmissing : h.catalogue.find? n = none) :
    h.catalogue.lookup n = .error (.unknownFunction n) ∧
      h.instantiate n = (h, .failure (.unknownFunction n)) := by
  simp [Catalogue.lookup, instantiate, Catalogue.instantiate, hmissing]

/-- The catalogue holds what it held before and what was registered with
success. -/
theorem entries_afterRegistrations : ∀ (rs : List (Registration σ)) (h : Host σ),
    (h.afterRegistrations rs).catalogue.entries =
      h.catalogue.entries ++ (h.registered rs).map Function.entry
  | [], _ => by simp [afterRegistrations, registered]
  | r :: rest, h => by
    have hcases := h.register_registering r
    have ih := entries_afterRegistrations rest
    unfold afterRegistrations at ih ⊢
    rw [List.foldl_cons, ih, registered]
    generalize h.register r.descriptor r.create = result at hcases
    cases hcases with
    | invalid _ => rfl
    | taken _ _ => rfl
    | added hf _ _ => simp [hf]

end Host

/-- **Each function is stored under its own name**, and no two under one
name. -/
structure Catalogue.Indexed (c : Catalogue σ) : Prop where
  key_eq : ∀ entry ∈ c.entries, entry.1 = entry.2.name
  nodup : (c.entries.map Prod.fst).Nodup

namespace Host

theorem indexed_register {h : Host σ} (hi : h.catalogue.Indexed) (r : Registration σ) :
    (h.register r.descriptor r.create).1.catalogue.Indexed := by
  have hcases := h.register_registering r
  generalize h.register r.descriptor r.create = result at hcases
  cases hcases with
  | invalid _ => exact hi
  | taken _ _ => exact hi
  | @added f hf hfree log =>
    constructor
    · exact List.forall_mem_append.mpr ⟨hi.key_eq, List.forall_mem_singleton.mpr rfl⟩
    · rw [List.map_append, List.map_singleton, Function.entry, Registration.name_of_function hf]
      exact hi.nodup.append (List.nodup_singleton _) (List.disjoint_singleton.mpr hfree)

theorem indexed_afterRegistrations : ∀ (rs : List (Registration σ)) {h : Host σ},
    h.catalogue.Indexed → (h.afterRegistrations rs).catalogue.Indexed
  | [], _, hi => hi
  | r :: rest, _, hi => indexed_afterRegistrations rest (indexed_register hi r)

end Host

/-! ### A catalogue with distinct names -/

namespace Catalogue.Indexed

variable {c c' : Catalogue σ}

theorem map_name (hi : c.Indexed) :
    (c.entries.map Prod.snd).map Function.name = c.entries.map Prod.fst := by
  rw [List.map_map]
  exact List.map_congr_left fun entry hentry => (hi.key_eq entry hentry).symm

theorem eq_of_name (hi : c.Indexed) {f g : Function σ} (hf : f ∈ c.entries.map Prod.snd)
    (hg : g ∈ c.entries.map Prod.snd) (hname : f.name = g.name) : f = g := by
  have hnodup : ((c.entries.map Prod.snd).map Function.name).Nodup := by
    rw [hi.map_name]
    exact hi.nodup
  exact List.inj_on_of_nodup_map hnodup hf hg hname

theorem find_eq_some_iff (hi : c.Indexed) {n : String} {f : Function σ} :
    c.find? n = some f ↔ (n, f) ∈ c.entries := by
  refine ⟨mem_of_find, fun hf => ?_⟩
  have hsome : (c.find? n).isSome = true :=
    isSome_find_iff.mpr (List.mem_map.mpr ⟨(n, f), hf, rfl⟩)
  obtain ⟨g, hg⟩ := Option.isSome_iff_exists.mp hsome
  have hsame : (n, g) = (n, f) := List.inj_on_of_nodup_map hi.nodup (mem_of_find hg) hf rfl
  rw [hg, (Prod.mk.inj hsame).2]

theorem functions_pairwise_le (c : Catalogue σ) :
    c.functions.Pairwise fun f g => bytes f.name ≤ bytes g.name := by
  have hsort : c.functions.Pairwise fun f g =>
      decide (f.descriptor.qualifiedName ≤ g.descriptor.qualifiedName) = true := by
    unfold functions
    refine List.pairwise_mergeSort (fun f g k hfg hgk => ?_) (fun f g => ?_) _
    · simp only [decide_eq_true_eq] at hfg hgk ⊢
      exact le_trans hfg hgk
    · rcases le_total f.descriptor.qualifiedName g.descriptor.qualifiedName with h | h <;> simp [h]
  refine hsort.imp fun {f g} h => ?_
  have hle : f.name ≤ g.name := of_decide_eq_true h
  exact bytes_le_iff.mpr hle

/-- The functions are listed in strictly increasing byte order. -/
theorem functions_pairwise_lt (hi : c.Indexed) :
    c.functions.Pairwise fun f g => bytes f.name < bytes g.name := by
  have hperm : (c.functions.map Function.name).Perm (c.entries.map Prod.fst) := by
    rw [← hi.map_name]
    exact (List.mergeSort_perm _ _).map _
  have hne : c.functions.Pairwise fun f g => f.name ≠ g.name :=
    List.pairwise_map.mp (hperm.nodup_iff.mpr hi.nodup)
  refine ((functions_pairwise_le c).and hne).imp fun {f g} h => ?_
  have hle : f.name ≤ g.name := bytes_le_iff.mp h.1
  exact bytes_lt_iff.mpr (lt_of_le_of_ne hle h.2)

/-- **One order only.** Functions with distinct names that are sorted by name,
from whatever order and in whatever way, come out as they are listed. -/
theorem eq_functions (hi : c.Indexed) {listing : List (Function σ)}
    (hperm : listing.Perm (c.entries.map Prod.snd))
    (hsorted : listing.Pairwise fun f g => bytes f.name ≤ bytes g.name) : listing = c.functions := by
  have hlisted : c.functions.Perm (c.entries.map Prod.snd) := List.mergeSort_perm _ _
  refine List.Perm.eq_of_pairwise (fun f g hf hg hfg hgf => ?_) hsorted (functions_pairwise_le c)
    (hperm.trans hlisted.symm)
  have hname : f.name = g.name := le_antisymm (bytes_le_iff.mp hfg) (bytes_le_iff.mp hgf)
  exact hi.eq_of_name (hperm.mem_iff.mp hf) (hlisted.mem_iff.mp hg) hname

/-- The order of the entries matters neither to look-ups nor to the listing. -/
theorem of_perm (hi : c.Indexed) (hi' : c'.Indexed) (hperm : c'.entries.Perm c.entries) :
    (∀ n, c'.find? n = c.find? n) ∧ c'.functions = c.functions := by
  constructor
  · intro n
    apply Option.ext
    intro f
    rw [hi.find_eq_some_iff, hi'.find_eq_some_iff, hperm.mem_iff]
  · have hlisted : c'.functions.Perm (c'.entries.map Prod.snd) := List.mergeSort_perm _ _
    exact hi.eq_functions (hlisted.trans (hperm.map _)) (functions_pairwise_le c')

end Catalogue.Indexed

/-! ### Registrations under different names -/

namespace Host

/-- Registrations under names that are all different, and none of them taken,
succeed if they are valid. -/
theorem registered_of_nodup : ∀ (rs : List (Registration σ)) {h : Host σ},
    (rs.map Registration.name).Nodup →
    (∀ r ∈ rs, r.name ∉ h.catalogue.entries.map Prod.fst) →
      h.registered rs = rs.filterMap Registration.function?
  | [], _, _, _ => rfl
  | r :: rest, h, hnodup, hfree => by
    obtain ⟨hr, hrest⟩ := List.nodup_cons.mp hnodup
    have hkept : ∀ r' ∈ rest, r'.name ∉ h.catalogue.entries.map Prod.fst :=
      fun r' hr' => hfree r' (List.mem_cons_of_mem _ hr')
    have hcases := h.register_registering r
    rw [registered]
    generalize h.register r.descriptor r.create = result at hcases
    cases hcases with
    | invalid hf => simp [hf, registered_of_nodup rest hrest hkept]
    | taken _ htaken => exact absurd htaken (hfree r List.mem_cons_self)
    | @added f hf _ log =>
      have hfree' : ∀ r' ∈ rest, r'.name ∉ (h.catalogue.entries ++ [f.entry]).map Prod.fst := by
        intro r' hr' hmem
        rw [List.map_append, List.mem_append] at hmem
        rcases hmem with hmem | hmem
        · exact hkept r' hr' hmem
        · have hsame : r'.name = r.name :=
            (List.mem_singleton.mp hmem).trans (Registration.name_of_function hf)
          exact hr (List.mem_map.mpr ⟨r', hr', hsame⟩)
      simp only [List.filterMap_cons, hf, Option.toList_some, List.singleton_append]
      rw [registered_of_nodup rest hrest hfree']

section FromNone

variable {h : Host σ} (hnone : h.catalogue.entries = [])

include hnone

theorem entries_eq_registered (rs : List (Registration σ)) :
    (h.afterRegistrations rs).catalogue.entries = (h.registered rs).map Function.entry := by
  rw [entries_afterRegistrations, hnone, List.nil_append]

theorem indexed_of_none (rs : List (Registration σ)) :
    (h.afterRegistrations rs).catalogue.Indexed := by
  apply indexed_afterRegistrations
  constructor <;> simp [hnone]

/-- Registrations under names that are all different may come in any order. -/
theorem catalogue_of_perm {rs rs' : List (Registration σ)} (hperm : rs'.Perm rs)
    (hnodup : (rs.map Registration.name).Nodup) :
    (∀ n, (h.afterRegistrations rs').catalogue.find? n = (h.afterRegistrations rs).catalogue.find? n) ∧
      (h.afterRegistrations rs').catalogue.functions = (h.afterRegistrations rs).catalogue.functions := by
  have hall : ∀ {rs : List (Registration σ)}, (rs.map Registration.name).Nodup →
      h.registered rs = rs.filterMap Registration.function? := by
    intro rs hnodup
    exact registered_of_nodup rs hnodup (by simp [hnone])
  have hnodup' : (rs'.map Registration.name).Nodup := (hperm.map _).nodup_iff.mpr hnodup
  have hsame : (h.afterRegistrations rs').catalogue.entries.Perm
      (h.afterRegistrations rs).catalogue.entries := by
    rw [entries_eq_registered hnone, entries_eq_registered hnone, hall hnodup, hall hnodup']
    exact (hperm.filterMap _).map _
  exact (indexed_of_none hnone rs).of_perm (indexed_of_none hnone rs') hsame

end FromNone

/-- **The first registration of a name wins.** Functions are registered with a
host that has none; `fs` are those whose registration succeeds.

* The catalogue holds the functions of `fs`, each under its own name.
* A further registration is refused as invalid exactly if it lacks a name or a
  constructor. If it is valid, it is refused as a duplicate exactly if its
  qualified name is that of a function of `fs`, and succeeds otherwise. What is
  refused leaves the host as it was.
* A look-up finds the first function of `fs` with the name, and an instance is
  made by that function; without one, both fail and nothing changes.
* The functions of `fs` are listed each once, in strictly increasing byte order
  of their names, and from whatever order they are sorted by name, no other
  list can come out.
* Registrations under names that are all different may come in any order. -/
theorem first_registration_wins (h : Host σ) (hnone : h.catalogue.entries = [])
    (rs : List (Registration σ)) :
    let g := h.afterRegistrations rs
    let fs := h.registered rs
    (g.catalogue.entries.map Prod.snd = fs ∧ ∀ entry ∈ g.catalogue.entries, entry.1 = entry.2.name) ∧
    (∀ r : Registration σ, let result := g.register r.descriptor r.create
      (result.2 = .failure (.invalidFunction r.name) ↔
        r.descriptor.name = "" ∨ r.create = none) ∧
      (r.descriptor.name ≠ "" → r.create ≠ none →
        (result.2 = .failure (.duplicateFunction r.name) ↔ ∃ f ∈ fs, f.name = r.name) ∧
        (result.2 = .value () ↔ ∀ f ∈ fs, f.name ≠ r.name)) ∧
      (result.2 ≠ .value () → result.1 = g)) ∧
    (∀ n f, (fs.find? fun f => f.name == n) = some f →
      g.catalogue.lookup n = .ok f ∧
      ∃ g' inst, g.instantiate n = (g', .value inst) ∧
        inst.kernel = (f.create g.memory).1 ∧ g'.memory = (f.create g.memory).2) ∧
    (∀ n, (∀ f ∈ fs, f.name ≠ n) →
      g.catalogue.lookup n = .error (.unknownFunction n) ∧
      g.instantiate n = (g, .failure (.unknownFunction n))) ∧
    g.catalogue.functions.Perm fs ∧
    (g.catalogue.functions.Pairwise fun f f' => bytes f.name < bytes f'.name) ∧
    (∀ listing : List (Function σ), listing.Perm fs →
      (listing.Pairwise fun f f' => bytes f.name ≤ bytes f'.name) →
        listing = g.catalogue.functions) ∧
    ∀ rs' : List (Registration σ), rs'.Perm rs → (rs.map Registration.name).Nodup →
      (∀ n, (h.afterRegistrations rs').catalogue.lookup n = g.catalogue.lookup n) ∧
      (h.afterRegistrations rs').catalogue.functions = g.catalogue.functions := by
  intro g fs
  have hindexed : g.catalogue.Indexed := indexed_of_none hnone rs
  have hentries : g.catalogue.entries = fs.map Function.entry := entries_eq_registered hnone rs
  have hfs : g.catalogue.entries.map Prod.snd = fs := by
    rw [hentries, List.map_map]
    exact List.map_id fs
  have hfind : ∀ n, g.catalogue.find? n = fs.find? fun f => f.name == n := by
    intro n
    rw [Catalogue.find?, hentries, Catalogue.lookup_entries]
  have hmem : ∀ n, n ∈ g.catalogue.entries.map Prod.fst ↔ ∃ f ∈ fs, f.name = n := by
    intro n
    rw [← hindexed.map_name, hfs, List.mem_map]
  refine ⟨⟨hfs, hindexed.key_eq⟩, ?_, ?_, ?_, ?_, hindexed.functions_pairwise_lt, ?_, ?_⟩
  · intro r
    refine ⟨g.register_eq_invalid_iff r, ?_, register_unchanged⟩
    intro hname hcreate
    obtain ⟨htaken, hfree⟩ := g.register_of_valid hname hcreate
    rw [hmem] at htaken hfree
    exact ⟨htaken, hfree.trans (by simp)⟩
  · intro n f hf
    exact lookup_of_find ((hfind n).trans hf)
  · intro n hn
    apply lookup_of_missing
    rw [hfind]
    simpa using hn
  · rw [← hfs]
    exact List.mergeSort_perm _ _
  · intro listing hperm hsorted
    rw [← hfs] at hperm
    exact hindexed.eq_functions hperm hsorted
  · intro rs' hperm hnodup
    obtain ⟨hfinds, hfunctions⟩ := catalogue_of_perm hnone hperm hnodup
    refine ⟨?_, hfunctions⟩
    intro n
    simp only [Catalogue.lookup, hfinds n]
    rfl

/-- Of two functions whose qualified name is split differently the first one
stays, a registration without a name and one without a constructor are
refused, and a name without a namespace comes before one that goes on. -/
theorem first_registration_wins_split_names :
    let script : Script := { update := some .accept, result := none }
    let valid (scope name : String) : Registration Unit := ⟨{ scope, name }, some script.constructor⟩
    let h : Host Unit := { catalogue := {}, ledger := { env := { memory := () } } }
    let rs := [valid "a.b" "c", valid "a" "", valid "" "a", ⟨{ name := "d" }, none⟩]
    let g := h.afterRegistrations rs
    (h.registered rs).map Function.name = ["a.b.c", "a"] ∧
      (g.register { scope := "a", name := "b.c" } (some script.constructor)).2 =
        .failure (.duplicateFunction "a.b.c") ∧
      (∃ f, g.catalogue.lookup "a.b.c" = .ok f ∧ f.descriptor.scope = "a.b") ∧
      g.catalogue.lookup "d" = .error (.unknownFunction "d") ∧
      g.catalogue.functions.map Function.name = ["a", "a.b.c"] := by
  intro script valid h rs g
  obtain ⟨-, hnext, hfound, hmissing, -, -, hlisting, -⟩ := first_registration_wins h rfl rs
  let first : Function Unit := ⟨{ scope := "a.b", name := "c" }, script.constructor⟩
  let second : Function Unit := ⟨{ name := "a" }, script.constructor⟩
  have hfs : h.registered rs = [first, second] := rfl
  have hdup := ((hnext (valid "a" "b.c")).2.1 (by decide) (by simp [valid])).1.mpr
    ⟨first, by simp [hfs], by decide⟩
  have hfirst := (hfound "a.b.c" first (by rw [hfs]; rfl)).1
  have hunknown := (hmissing "d" (by rw [hfs]; decide)).1
  -- both functions in the order of their names are the listing
  have hfunctions : [second, first] = g.catalogue.functions := by
    apply hlisting
    · rw [hfs]
      exact List.Perm.swap first second []
    · decide +kernel
  refine ⟨by rw [hfs]; decide, hdup, ⟨first, hfirst, rfl⟩, hunknown, ?_⟩
  rw [← hfunctions]
  decide

end Host
end OffsetGaps
