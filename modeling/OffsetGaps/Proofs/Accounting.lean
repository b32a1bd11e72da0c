/-
# The table of open instances keeps its books

Whatever the registered functions do (their instances may fail, be aborted
or share their state), the table of a host follows the operations of its
callers. An open takes the first identifier of the supply that is not in use
and adds that one entry; a finalize or a discard of an identifier in use
takes that one entry out, however the call of the instance ends; every other
operation leaves the table alone. So the number of open instances is, after
any run, the number of opens that succeeded less the number of finalizes and
discards that found their identifier in use.

No identifier stands twice in the table (`Host.Distinct`), because an
identifier is drawn only when it is free. This is the invariant that lets a
release take out one entry and not more.

Key definitions: `Host.openIds`, `Host.Distinct`, `Host.opens`,
`Host.closes`, `Host.tally`.
Key theorems: `Host.handle_release`, `Host.openInstance_of_firstFree`,
`Host.Distinct.step`, `Host.openCount_step`, `Host.openCount_after`,
`Host.table_accounted`.
-/
import OffsetGaps.Host.Scripted
import OffsetGaps.Proofs.Sessions

namespace OffsetGaps
namespace Host

variable {σ : Type} {h : Host σ} {id : String}

/-- Every identifier stands for one instance at most. -/
def Distinct (h : Host σ) : Prop := h.openIds.Nodup

def opens (h : Host σ) : Operation → Bool
  | .openInstance name =>
    match (h.openInstance name).2 with
    | .value _ => true
    | _ => false
  | _ => false

def closes (h : Host σ) : Operation → Bool
  | .use id u => u.releases && (h.handle? id).isSome
  | _ => false

/-- How many operations of a run are as `p` says, each judged by the host
that it finds. -/
def tally (p : Host σ → Operation → Bool) : Host σ → List Operation → ℕ
  | _, [] => 0
  | h, op :: rest => (p h op).toNat + tally p (h.step op) rest

/-! ### Looking up and releasing -/

theorem handle_eq_none_iff : h.handle? id = none ↔ id ∉ h.openIds := by
  simp only [handle?, openIds, List.lookup_eq_none_iff, List.mem_map, bne_iff_ne, ne_eq, not_exists,
    not_and]
  exact ⟨fun hne e he heq => hne e he heq.symm, fun hne e he heq => hne e he heq.symm⟩

theorem handle_release_self : (h.release id).handle? id = none := by
  rw [handle_eq_none_iff, openIds, release]
  simp

/-- Releasing an identifier takes out what it stands for and nothing else. -/
theorem handle_release (i : String) :
    (h.release id).handle? i = if i = id then none else h.handle? i := by
  by_cases hi : i = id
  · rw [if_pos hi, hi, handle_release_self]
  · rw [if_neg hi, handle_release_ne hi]

theorem filter_of_not_mem {α : Type} {entries : List (String × α)}
    (hid : id ∉ entries.map Prod.fst) : entries.filter (fun entry => entry.1 != id) = entries := by
  rw [List.filter_eq_self]
  intro entry he
  have hne : entry.1 ≠ id := fun heq => hid (List.mem_map.mpr ⟨entry, he, heq⟩)
  simpa using hne

theorem release_of_none (hn : h.handle? id = none) : h.release id = h := by
  have hkeep := filter_of_not_mem (handle_eq_none_iff.mp hn)
  rw [release, hkeep]

theorem Distinct.release (hd : h.Distinct) (id : String) : (h.release id).Distinct :=
  List.Nodup.sublist (List.filter_sublist.map Prod.fst) hd

/-- Of distinct keys, releasing one takes out as many entries as look-up
finds. -/
theorem length_filter_add_isSome {α : Type} (id : String) : ∀ {entries : List (String × α)},
    (entries.map Prod.fst).Nodup →
      (entries.filter fun entry => entry.1 != id).length + (entries.lookup id).isSome.toNat =
        entries.length
  | [], _ => rfl
  | (key, value) :: rest, hn => by
    obtain ⟨hkey, hrest⟩ := List.nodup_cons.mp hn
    by_cases heq : key = id
    · subst heq
      rw [List.filter_cons_of_neg (by simp), filter_of_not_mem hkey, List.lookup_cons_self]
      rfl
    · have hbeq : (id == key) = false := by simpa using fun heq' => heq heq'.symm
      have ih := length_filter_add_isSome id hrest
      rw [List.filter_cons_of_pos (by simpa using heq), List.lookup_cons, hbeq, List.length_cons,
        List.length_cons]
      simp only
      omega

theorem openCount_release (hd : h.Distinct) (id : String) :
    (h.release id).openCount + (h.handle? id).isSome.toNat = h.openCount :=
  length_filter_add_isSome id hd

/-! ### What the operations do to the table -/

theorem openInstance_of_unknown {name : String} (hfind : h.catalogue.find? name = none) :
    h.openInstance name = (h, .failure (.unknownFunction name)) := by
  have hopening := h.openInstance_opening name
  generalize h.openInstance name = result at hopening
  cases hopening with
  | unknown _ => rfl
  | exhausted hfind' _ _ => rw [hfind] at hfind'; cases hfind'
  | opened hfind' _ _ _ _ => rw [hfind] at hfind'; cases hfind'

/-- An instance of a registered function is opened under the first free
identifier, and no other entry changes; the supply goes on behind it. -/
theorem openInstance_of_firstFree {name : String} {f : Function σ} {n : ℕ}
    (hfind : h.catalogue.find? name = some f) (hn : h.supply.FirstFree h.openIds n) :
    ∃ opened inst, h.openInstance name = (opened, .value (h.supply.ids n)) ∧
      inst.kernel = (f.create h.memory).1 ∧
      (∀ i, opened.handle? i = if i = h.supply.ids n then some ⟨name, inst⟩ else h.handle? i) ∧
      ∀ m, opened.supply.ids m = h.supply.ids (n + 1 + m) := by
  have hopening := h.openInstance_opening name
  generalize h.openInstance name = result at hopening
  cases hopening with
  | unknown hfind' => rw [hfind] at hfind'; cases hfind'
  | exhausted _ _ hall => exact absurd (hall (h.supply.block n)) hn.free
  | opened hfind' _ hkernel hfirst hrest =>
    obtain rfl := Option.some.inj (hfind.symm.trans hfind')
    obtain rfl := hn.unique hfirst
    refine ⟨_, _, rfl, hkernel, fun i => ?_, hrest⟩
    rw [handle?, List.lookup_cons]
    by_cases hi : i = h.supply.ids n
    · rw [if_pos hi, beq_iff_eq.mpr hi]
    · rw [if_neg hi, beq_eq_false_iff_ne.mpr hi]
      rfl

/-- An open that succeeds is one of a registered function and met a free
identifier. -/
theorem exists_firstFree_of_value {name : String} (hopen : (h.openInstance name).2 = .value id) :
    ∃ f n, h.catalogue.find? name = some f ∧ h.supply.FirstFree h.openIds n := by
  have hopening := h.openInstance_opening name
  generalize h.openInstance name = result at hopening hopen
  cases hopening with
  | unknown _ => cases hopen
  | exhausted _ _ _ => cases hopen
  | opened hfind _ _ hfirst _ => exact ⟨_, _, hfind, hfirst⟩

/-- A use that releases its identifier takes it out of the table, however the
call of the instance ends; every other use keeps the table. -/
theorem handles_use (h : Host σ) (id : String) (u : Use) :
    (h.use id u).1.handles = if u.releases then (h.release id).handles else h.handles := by
  cases u with
  | update cancelled args =>
    simp only [use, update]
    split <;> rfl
  | finalize cancelled =>
    simp only [use, finalize]
    split
    · rename_i hnone
      have hkeep : h.release id = h := release_of_none hnone
      show h.handles = (h.release id).handles
      rw [hkeep]
    · rfl
  | discard => rfl
  | functionOf => rfl

theorem supply_use (h : Host σ) (id : String) (u : Use) : (h.use id u).1.supply = h.supply := by
  cases u with
  | update cancelled args =>
    simp only [use, update]
    split <;> rfl
  | finalize cancelled =>
    simp only [use, finalize]
    split <;> rfl
  | discard => rfl
  | functionOf => rfl

/-! ### Runs -/

theorem Distinct.step (hd : h.Distinct) (op : Operation) : (h.step op).Distinct := by
  cases op with
  | openCount => exact hd
  | use id u =>
    show ((h.use id u).1.handles.map Prod.fst).Nodup
    rw [handles_use]
    split
    · exact hd.release id
    · exact hd
  | openInstance name =>
    have hopening := h.openInstance_opening name
    show (h.openInstance name).1.Distinct
    generalize h.openInstance name = result at hopening
    cases hopening with
    | unknown _ => exact hd
    | exhausted _ _ _ => exact hd
    | opened _ _ _ hfirst _ => exact List.nodup_cons.mpr ⟨hfirst.free, hd⟩

/-- **One operation.** The number of open instances grows by one with an open
that succeeds, and shrinks by one when an identifier in use is released. -/
theorem openCount_step (hd : h.Distinct) (op : Operation) :
    (h.step op).openCount + (h.closes op).toNat = h.openCount + (h.opens op).toNat := by
  cases op with
  | openCount => rfl
  | use id u =>
    show (h.use id u).1.handles.length + (u.releases && (h.handle? id).isSome).toNat = h.openCount + 0
    rw [handles_use]
    cases u.releases with
    | true => exact openCount_release hd id
    | false => rfl
  | openInstance name =>
    have hopening := h.openInstance_opening name
    show (h.openInstance name).1.openCount + 0 = h.openCount + (h.opens (.openInstance name)).toNat
    rw [opens]
    generalize h.openInstance name = result at hopening
    cases hopening with
    | unknown _ => rfl
    | exhausted _ _ _ => rfl
    | opened _ _ _ _ _ => rfl

/-- **A run.** What is open afterwards and what was closed is what was open
before and what was opened. -/
theorem openCount_after : ∀ (ops : List Operation) {h : Host σ}, h.Distinct →
    (h.after ops).openCount + h.tally closes ops = h.openCount + h.tally opens ops
  | [], _, _ => rfl
  | op :: rest, h, hd => by
    have hstep := openCount_step hd op
    have hrest := openCount_after rest (hd.step op)
    show ((h.step op).after rest).openCount + ((h.closes op).toNat + (h.step op).tally closes rest) =
      h.openCount + ((h.opens op).toNat + (h.step op).tally opens rest)
    omega

/-- The supply is the stream that it was at the start, behind what has been
drawn. -/
theorem supply_after : ∀ (ops : List Operation) (h : Host σ),
    ∃ k, ∀ n, (h.after ops).supply.ids n = h.supply.ids (k + n)
  | [], _ => ⟨0, fun n => by rw [Nat.zero_add]; rfl⟩
  | op :: rest, h => by
    have hstep : ∃ k, ∀ n, (h.step op).supply.ids n = h.supply.ids (k + n) := by
      cases op with
      | openCount => exact ⟨0, fun n => by rw [Nat.zero_add]; rfl⟩
      | use id u => exact ⟨0, fun n => by rw [Nat.zero_add, ← supply_use h id u]; rfl⟩
      | openInstance name =>
        have hopening := h.openInstance_opening name
        show ∃ k, ∀ n, (h.openInstance name).1.supply.ids n = h.supply.ids (k + n)
        generalize h.openInstance name = result at hopening
        cases hopening with
        | unknown _ => exact ⟨0, fun n => by rw [Nat.zero_add]⟩
        | exhausted _ _ _ => exact ⟨0, fun n => by rw [Nat.zero_add]⟩
        | opened _ _ _ _ hrest => exact ⟨_, hrest⟩
    obtain ⟨k, hk⟩ := hstep
    obtain ⟨k', hk'⟩ := supply_after rest (h.step op)
    refine ⟨k + k', fun n => ?_⟩
    show ((h.step op).after rest).supply.ids n = _
    rw [hk', hk, Nat.add_assoc]

/-- **The table keeps its books.** After any operations from an empty table,
whatever the registered functions do:

* as many instances are open as opens succeeded, less the finalizes and
  discards that found their identifier in use;
* the supply is the initial stream of identifiers behind those drawn;
* opening an instance of a function that is not registered changes nothing;
* opening one of a registered function, when an identifier is free, succeeds
  under the first free one and adds this entry alone; and no other open
  succeeds;
* finalizing and discarding an identifier in use take out this entry alone,
  whatever the instance's result comes to, and an update keeps the table;
* an identifier that is not in use is refused, and nothing changes. -/
theorem table_accounted (h : Host σ) (hempty : h.handles = []) (ops : List Operation)
    (cancelled : Bool) :
    let g := (h.after ops).inContext cancelled
    g.openCount + h.tally closes ops = h.tally opens ops ∧
    (∃ k, ∀ n, g.supply.ids n = h.supply.ids (k + n)) ∧
    (∀ name, g.catalogue.find? name = none →
      g.openInstance name = (g, .failure (.unknownFunction name))) ∧
    (∀ name f n, g.catalogue.find? name = some f → g.supply.FirstFree g.openIds n →
      ∃ opened inst, g.openInstance name = (opened, .value (g.supply.ids n)) ∧
        inst.kernel = (f.create g.memory).1 ∧
        (∀ i, opened.handle? i = if i = g.supply.ids n then some ⟨name, inst⟩ else g.handle? i) ∧
        ∀ m, opened.supply.ids m = g.supply.ids (n + 1 + m)) ∧
    (∀ name id, (g.openInstance name).2 = .value id →
      ∃ f n, g.catalogue.find? name = some f ∧ g.supply.FirstFree g.openIds n) ∧
    (∀ id handle, g.handle? id = some handle →
      (g.finalize id).2 = (handle.inst.kernel .result g.ledger.env).2 ∧
      (∀ i, (g.finalize id).1.handle? i = if i = id then none else g.handle? i) ∧
      (g.discard id).2 = true ∧ (g.discard id).1.ledger = g.ledger ∧
      (∀ i, (g.discard id).1.handle? i = if i = id then none else g.handle? i) ∧
      ∀ args, (g.update id args).1.handles = g.handles) ∧
    ∀ id, g.handle? id = none →
      (∀ args, g.update id args = (g, .failure (.unknownInstance id))) ∧
      g.finalize id = (g, .failure (.unknownInstance id)) ∧ g.discard id = (g, false) := by
  intro g
  have hd : h.Distinct := by
    rw [Distinct, openIds, hempty]
    exact List.nodup_nil
  refine ⟨?_, supply_after ops h, fun name hfind => openInstance_of_unknown hfind,
    fun name f n hfind hn => openInstance_of_firstFree hfind hn,
    fun name id hopen => exists_firstFree_of_value hopen, fun id handle hs => ?_, fun id hn => ?_⟩
  · have hcount := openCount_after ops hd
    have hzero : h.openCount = 0 := by rw [openCount, hempty]; rfl
    show (h.after ops).openCount + _ = _
    omega
  · have hfinalize : g.finalize id = (g.release id).perform handle.inst .result := by
      rw [finalize, hs]
    refine ⟨?_, fun i => ?_, ?_, rfl, fun i => handle_release i, fun args => ?_⟩
    · rw [hfinalize]
      exact Instance.perform_outcome handle.inst .result g.ledger
    · rw [hfinalize]
      exact handle_release i
    · rw [discard, hs]; rfl
    · rw [update, hs]; rfl
  · refine ⟨fun args => by rw [update, hn], by rw [finalize, hn], ?_⟩
    rw [discard, release_of_none hn, hn]
    rfl

/-- Two instances are opened, the second one past an identifier in use, and
one open is refused. The result of the first is aborted. One instance stays
open, and the identifier of the other is free again, for the next open to
take. -/
theorem table_accounted_past_collision :
    let script : Script := { update := none, result := none }
    let h : Host Unit :=
      { catalogue := { entries := [("sum", ⟨{ name := "sum" }, script.constructor⟩)] }
        ledger := { env := { memory := () } }
        supply := { queue := [1, 1, 2] } }
    let first := "00000000-0000-4000-8000-000000000001"
    let ops : List Operation := [.openInstance "sum", .openInstance "mean", .openInstance "sum",
      .use first (.finalize false), .use first .discard]
    let g := (h.after ops).inContext false
    g.openCount = 1 ∧ g.discard first = (g, false) ∧ (g.openInstance "sum").2 = .value first := by
  intro script h first ops g
  obtain ⟨hcount, -, -, hopen, -, -, hrefused⟩ := table_accounted h rfl ops false
  have hopens : h.tally opens ops = 2 := by decide +kernel
  have hcloses : h.tally closes ops = 1 := by decide +kernel
  have hfree : first ∉ g.openIds := by decide +kernel
  have hnext : g.supply.ids 0 = first := by decide +kernel
  refine ⟨?_, (hrefused first (handle_eq_none_iff.mpr hfree)).2.2, ?_⟩
  · change g.openCount + h.tally closes ops = h.tally opens ops at hcount
    omega
  · have hfirst : g.supply.FirstFree g.openIds 0 :=
      ⟨by rw [hnext]; exact hfree, fun m hm => absurd hm (Nat.not_lt_zero m)⟩
    obtain ⟨opened, inst, heq, -⟩ := hopen "sum" _ 0 rfl hfirst
    rw [heq, hnext]

end Host
end OffsetGaps
