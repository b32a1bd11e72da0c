/-
# Layouts are read back from their documents

A document lists the entries of a layout in the order of its format: by the
bytes of the keys in JSON, and in their natural order in YAML, where a key
stands in single quotes and an entry on a line of its own. Both are read here
by readers of their own, and what is read are the entries of the layout; so
the documents of different layouts differ.

The order in which the entries were held does not show, as long as they are
in strict order. Bytes always order them. The natural order does so unless
the keys of the least offset and two others stand in a circle (`Tangled`): then
the least offset can be made to stand before one of the others or behind it.
So documents are in numeric order unless some held offset is displaced.

Key definitions: `Layout.Keyed`, `Layout.Tangled`, `Layout.readJson`,
`Yaml.readMapping`, `Layout.offsetListing`.
Key theorems: `Yaml.entryText_marked`, `Layout.readMapping_offsetListing`,
`Layout.documents_read_back`, `Layout.yaml_listed_by_value`.
-/
import Mathlib
import OffsetGaps.Proofs.Circles
import OffsetGaps.Proofs.Documents
import OffsetGaps.Proofs.Layouts
import OffsetGaps.Proofs.Listings
import OffsetGaps.Proofs.NaturalOrder

namespace OffsetGaps

/-! ### Layouts whose keys are those of offsets -/

/-- The entry of an offset and its distance. -/
def entry (e : Int64 × Int64) : String × Int64 := (Key.ofOffset e.1, e.2)

theorem entry_injective : Function.Injective entry := by
  intro e f h
  obtain ⟨hkey, hdistance⟩ := Prod.mk.inj h
  exact Prod.ext (Key.ofOffset_injective hkey) hdistance

namespace Layout

/-- Every key is the key of an offset, and no key stands twice. -/
structure Keyed (l : Layout) : Prop where
  keys : ∀ e ∈ l.entries, ∃ o, e.1 = Key.ofOffset o
  nodup : (l.entries.map Prod.fst).Nodup

/-- The offset has an entry. -/
def Holds (l : Layout) (o : Int64) : Prop := ∃ d, entry (o, d) ∈ l.entries

/-- The layout holds the least offset and two others that stand in a circle
with it. -/
def Tangled (l : Layout) : Prop :=
  ∃ p q, Circle p q ∧ l.Holds Int64.minValue ∧ l.Holds p ∧ l.Holds q

variable {l m : Layout}

theorem Keyed.perm (h : l.Keyed) (hperm : m.entries.Perm l.entries) : m.Keyed :=
  ⟨fun e he => h.keys e (hperm.mem_iff.mp he), (hperm.map Prod.fst).nodup_iff.mpr h.nodup⟩

theorem Keyed.sublist (h : l.Keyed) (hsub : m.entries.Sublist l.entries) : m.Keyed :=
  ⟨fun e he => h.keys e (hsub.subset he), (hsub.map Prod.fst).nodup h.nodup⟩

theorem keyed_of_ofOffsets {offsets : List Int64} (h : Layout.ofOffsets offsets = .ok l) :
    l.Keyed := by
  have hdescribes := describes_of_ofOffsets h
  refine ⟨fun e he => ?_, hdescribes.nodup⟩
  obtain ⟨o, hkey, -⟩ := (hdescribes.mem_iff e.1 e.2).mp he
  exact ⟨o, hkey⟩

/-- Every layout that is handed out is keyed. -/
theorem keyed_of_finalize {a : Accumulator} (h : a.finalize.2 = .ok l) : l.Keyed := by
  cases a with
  | finalized => cases h
  | collecting taken =>
    cases hlayout : Layout.ofOffsets taken with
    | error g =>
      simp only [Accumulator.finalize, hlayout] at h
      cases h
    | ok k =>
      simp only [Accumulator.finalize, hlayout] at h
      obtain rfl : k = l := Except.ok.inj h
      exact keyed_of_ofOffsets hlayout

/-- The entries of a keyed layout, by offset. -/
theorem Keyed.exists_entries (h : l.Keyed) {entries : List (String × Int64)}
    (hsub : ∀ e ∈ entries, e ∈ l.entries) : ∃ listed : List (Int64 × Int64), entries = listed.map entry := by
  induction entries with
  | nil => exact ⟨[], rfl⟩
  | cons e entries ih =>
    obtain ⟨he, hrest⟩ := List.forall_mem_cons.mp hsub
    obtain ⟨o, hkey⟩ := h.keys e he
    obtain ⟨listed, rfl⟩ := ih hrest
    exact ⟨(o, e.2) :: listed, by rw [List.map_cons, entry, ← hkey]⟩

theorem Keyed.exists_entry (h : l.Keyed) {e : String × Int64} (he : e ∈ l.entries) :
    ∃ o d, e = entry (o, d) := by
  obtain ⟨o, hkey⟩ := h.keys e he
  exact ⟨o, e.2, by rw [entry, ← hkey]⟩

theorem Keyed.entry_unique (h : l.Keyed) {o d d' : Int64} (hd : entry (o, d) ∈ l.entries)
    (hd' : entry (o, d') ∈ l.entries) : d = d' := by
  have hfirst := (lookup_eq_some_iff_mem h.nodup).mpr hd
  rw [(lookup_eq_some_iff_mem h.nodup).mpr hd'] at hfirst
  exact (Option.some.inj hfirst).symm

theorem byNature_perm (l : Layout) : l.byNature.Perm l.entries := Sorting.sort_perm _ _

theorem byBytes_perm (l : Layout) : l.byBytes.Perm l.entries := List.mergeSort_perm _ _

/-! ### The order of the entries -/

theorem byBytes_pairwise (l : Layout) : l.byBytes.Pairwise fun a b => a.1 ≤ b.1 := by
  have hsorted : l.byBytes.Pairwise fun a b => decide (a.1 ≤ b.1) = true := by
    refine List.pairwise_mergeSort (fun a b c hab hbc => ?_) (fun a b => ?_) l.entries
    · simp only [decide_eq_true_eq] at *
      exact le_trans hab hbc
    · simpa using le_total a.1 b.1
  exact hsorted.imp fun hle => by simpa using hle

/-- In byte order, the order of the entries does not matter. -/
theorem byBytes_eq_of_perm (h : l.Keyed) (hperm : m.entries.Perm l.entries) :
    m.byBytes = l.byBytes := by
  refine List.Perm.eq_of_pairwise (fun a b ha hb hab hba => ?_) m.byBytes_pairwise
    l.byBytes_pairwise (m.byBytes_perm.trans (hperm.trans l.byBytes_perm.symm))
  have ha' := hperm.mem_iff.mp (m.byBytes_perm.mem_iff.mp ha)
  have hb' := l.byBytes_perm.mem_iff.mp hb
  obtain ⟨o, d, rfl⟩ := h.exists_entry ha'
  obtain ⟨o', d', rfl⟩ := h.exists_entry hb'
  obtain rfl : o = o' := Key.ofOffset_injective (le_antisymm hab hba)
  rw [h.entry_unique ha' hb']

/-- Keys in natural order that differ are so one way only. -/
theorem Keyed.natural_asymm (h : l.Keyed) {x y : String × Int64} (hx : x ∈ l.entries)
    (hy : y ∈ l.entries) (hless : keyLess x.1 y.1 = true) : keyLess y.1 x.1 = false := by
  obtain ⟨a, d, rfl⟩ := h.exists_entry hx
  obtain ⟨b, d', rfl⟩ := h.exists_entry hy
  exact keyLess_asymm hless

/-- Where there is no circle, the natural order is an order of the entries. -/
theorem Keyed.isOrderOn (h : l.Keyed) (hfree : ¬ l.Tangled) :
    Sorting.IsOrderOn (fun a b => keyLess a.1 b.1) (· ∈ l.entries) := by
  refine ⟨h.natural_asymm, ?_⟩
  intro x y z hx hy hz hyx hzy
  obtain ⟨a, d, rfl⟩ := h.exists_entry hx
  obtain ⟨b, d', rfl⟩ := h.exists_entry hy
  obtain ⟨c, d'', rfl⟩ := h.exists_entry hz
  simp only [entry] at hyx hzy ⊢
  by_cases hab : a = b
  · rw [hab]
    exact hzy
  · by_cases hbc : b = c
    · rw [← hbc]
      exact hyx
    · have hless : keyLess (Key.ofOffset a) (Key.ofOffset b) = true :=
        (keyLess_total hab).resolve_right (by rw [hyx]; decide)
      have hless' : keyLess (Key.ofOffset b) (Key.ofOffset c) = true :=
        (keyLess_total hbc).resolve_right (by rw [hzy]; decide)
      have hheld : ∀ o ∈ [a, b, c], l.Holds o := by
        simp only [List.forall_mem_cons]
        exact ⟨⟨d, hx⟩, ⟨d', hy⟩, ⟨d'', hz⟩, by simp⟩
      refine keyLess_asymm (keyLess_trans hless hless' fun p q hcircle hmin hp hq => ?_)
      exact hfree ⟨p, q, hcircle, hheld _ hmin, hheld _ hp, hheld _ hq⟩

/-- In natural order, the order of the entries does not matter if there is no
circle. -/
theorem byNature_eq_of_perm (h : l.Keyed) (hfree : ¬ l.Tangled)
    (hperm : m.entries.Perm l.entries) : m.byNature = l.byNature := by
  refine Sorting.sort_eq_of_perm hperm (h.isOrderOn hfree) ?_
  intro x hx y hy hxy hyx
  obtain ⟨a, d, rfl⟩ := h.exists_entry hx
  obtain ⟨b, d', rfl⟩ := h.exists_entry hy
  simp only [entry] at hxy hyx
  have hab : a = b := by
    by_contra hne
    rcases keyLess_total hne with hless | hless
    · rw [hxy] at hless
      cases hless
    · rw [hyx] at hless
      cases hless
  subst hab
  rw [h.entry_unique hx hy]

/-- Without the least offset there is no circle. -/
theorem not_tangled_of_not_holds (h : ¬ l.Holds Int64.minValue) : ¬ l.Tangled :=
  fun ⟨_, _, _, hmin, _⟩ => h hmin

/-- Three entries with keys that differ can be put in front of the others. -/
theorem exists_front {a b c : String × Int64} (ha : a ∈ l.entries)
    (hb : b ∈ l.entries) (hc : c ∈ l.entries) (hkeys : [a.1, b.1, c.1].Nodup) :
    ∃ rest, (a :: b :: c :: rest).Perm l.entries := by
  have hnodup : [a, b, c].Nodup := List.Nodup.of_map Prod.fst hkeys
  have hsubset : [a, b, c] ⊆ l.entries := by
    intro e he
    simp only [List.mem_cons, List.not_mem_nil, or_false] at he
    rcases he with rfl | rfl | rfl <;> assumption
  obtain ⟨front, hfront, hsub⟩ := List.subperm_of_subset hnodup hsubset
  obtain ⟨rest, hrest⟩ := hsub.exists_perm_append
  exact ⟨rest, (hfront.symm.append_right rest).trans hrest.symm⟩

/-- If there is a circle, the least offset can stand before another offset of
lesser magnitude, and behind it. -/
theorem Keyed.exists_orders (h : l.Keyed) (htangled : l.Tangled) :
    ∃ p d e, Displaced Int64.minValue p ∧
      (∃ m : Layout, m.entries.Perm l.entries ∧
        [entry (Int64.minValue, d), entry (p, e)].Sublist m.byNature) ∧
      ∃ m : Layout, m.entries.Perm l.entries ∧
        [entry (p, e), entry (Int64.minValue, d)].Sublist m.byNature := by
  obtain ⟨p, q, hcircle, ⟨d, hmin⟩, ⟨e, hp⟩, ⟨f, hq⟩⟩ := htangled
  obtain ⟨hpq, hqmin, hminp⟩ := keyLess_circle hcircle
  have hne : ∀ {a b : Int64}, keyLess (Key.ofOffset a) (Key.ofOffset b) = true →
      Key.ofOffset a ≠ Key.ofOffset b := by
    intro a b hless heq
    rw [heq, keyLess_irrefl] at hless
    cases hless
  obtain ⟨rest, hperm⟩ := exists_front hp hq hmin
    (by simpa [entry, hne hpq, hne hqmin] using (hne hminp).symm)
  have hall : Keyed ⟨_⟩ := h.perm (m := ⟨_⟩) hperm
  have hothers : Keyed ⟨entry (p, e) :: entry (q, f) :: rest⟩ :=
    hall.sublist (.cons_cons _ (.cons_cons _ (List.sublist_cons_self _ _)))
  have hfree : ¬ Tangled ⟨entry (p, e) :: entry (q, f) :: rest⟩ := by
    have hturned : ([entry (p, e), entry (q, f)] ++ entry (Int64.minValue, d) :: rest).Perm
        (entry (Int64.minValue, d) :: ([entry (p, e), entry (q, f)] ++ rest)) := List.perm_middle
    have hfirst := (hturned.map Prod.fst).nodup_iff.mp hall.nodup
    apply not_tangled_of_not_holds
    rintro ⟨d', hd'⟩
    exact (List.nodup_cons.mp hfirst).1 (List.mem_map.mpr ⟨entry (Int64.minValue, d'), hd', rfl⟩)
  obtain ⟨⟨xs, hxs, hsub⟩, ys, hys, hsub'⟩ := Sorting.exists_sort_of_circle
    (hothers.isOrderOn hfree) (fun x hx y hy => hall.natural_asymm hx hy) hpq hqmin hminp
  exact ⟨p, d, e, hcircle.displaced, ⟨⟨xs⟩, hxs.trans hperm, hsub⟩, ⟨ys⟩, hys.trans hperm, hsub'⟩

/-- In a list without repetition, what stands before has the lesser place. -/
theorem idxOf_lt_of_sublist {α : Type} [BEq α] [LawfulBEq α] {x y : α} {xs : List α}
    (hnodup : xs.Nodup) (h : [x, y].Sublist xs) : xs.idxOf x < xs.idxOf y := by
  have hplaces : xs.Pairwise fun a b => xs.idxOf a < xs.idxOf b := by
    rw [List.pairwise_iff_getElem]
    intro i j hi hj hij
    rw [hnodup.idxOf_getElem i hi, hnodup.idxOf_getElem j hj]
    exact hij
  exact List.pairwise_iff_forall_sublist.mp hplaces h

/-- If there is a circle, the order of the entries does matter. -/
theorem exists_byNature_ne (h : l.Keyed) (htangled : l.Tangled) :
    ∃ m : Layout, m.entries.Perm l.entries ∧ m.byNature ≠ l.byNature := by
  by_contra hnone
  have hsame : ∀ m : Layout, m.entries.Perm l.entries → m.byNature = l.byNature :=
    fun m hperm => by_contra fun hne => hnone ⟨m, hperm, hne⟩
  obtain ⟨p, d, e, -, ⟨m, hm, hsub⟩, k, hk, hsub'⟩ := h.exists_orders htangled
  have hnodup : l.byNature.Nodup := l.byNature_perm.nodup_iff.mpr (List.Nodup.of_map _ h.nodup)
  rw [hsame m hm] at hsub
  rw [hsame k hk] at hsub'
  have hbefore := idxOf_lt_of_sublist hnodup hsub
  have hbehind := idxOf_lt_of_sublist hnodup hsub'
  omega

/-! ### Reading JSON -/

/-- A member of an object as an entry. -/
def readMember : String × Json → Option (String × Int64)
  | (key, .number literal) => (Decimal.readInt64 literal.toList).toOption.map fun d => (key, d)
  | _ => none

/-- The entries in a JSON document, in the order of the document. A document
that is `null` has none. -/
def readJson (text : List Char) : Option (List (String × Int64)) :=
  match Json.readFirst text with
  | some (.object members, rest) => if rest.all Json.isSpace then members.mapM readMember else none
  | some (.null, rest) => if rest.all Json.isSpace then some [] else none
  | _ => none

theorem readMember_jsonMember (e : String × Int64) : readMember (jsonMember e) = some e := by
  simp [jsonMember, readMember, Decimal.text, Decimal.readInt64_write, Except.toOption]

theorem mapM_readMember (entries : List (String × Int64)) :
    (entries.map jsonMember).mapM readMember = some entries := by
  induction entries with
  | nil => rfl
  | cons e entries ih => simp [readMember_jsonMember, ih]

/-- The JSON document of a layout has its entries in byte order. -/
theorem readJson_jsonText (l : Layout) : readJson l.jsonText = some l.byBytes := by
  unfold readJson
  rw [readFirst_jsonText]
  exact mapM_readMember l.byBytes

end Layout

/-! ### Reading YAML -/

namespace Yaml

/-- Reads a text in single quotes behind the first of them, up to the last. A
quote that is doubled stands for one. -/
def readQuoted : List Char → Option (List Char × List Char)
  | [] => none
  | '\'' :: '\'' :: rest => (readQuoted rest).map fun (cs, rest) => ('\'' :: cs, rest)
  | '\'' :: rest => some ([], rest)
  | c :: rest => (readQuoted rest).map fun (cs, rest) => (c :: cs, rest)

/-- Reads an integer in its shortest form. -/
def readInteger (cs : List Char) : Option Int64 :=
  match Decimal.readInt64 cs with
  | .ok n => if Decimal.write n.toInt = cs then some n else none
  | .error _ => none

/-- Reads a line with a key in single quotes and an integer. -/
def readEntry : List Char → Option (String × Int64)
  | '\'' :: line =>
    match readQuoted line with
    | some (key, ':' :: ' ' :: value) => (readInteger value).map fun d => (String.ofList key, d)
    | _ => none
  | _ => none

/-- The entries in a mapping, in the order of the document: none, or one a
line. -/
def readMapping (text : List Char) : Option (List (String × Int64)) :=
  if text = Layout.emptyText then some [] else (rawLines text).mapM readEntry

theorem readQuoted_of_not_mem {cs : List Char} (hcs : '\'' ∉ cs) (rest : List Char)
    (hrest : rest.head? ≠ some '\'') : readQuoted (cs ++ '\'' :: rest) = some (cs, rest) := by
  induction cs with
  | nil =>
    cases rest with
    | nil => rfl
    | cons c rest =>
      have hc : c ≠ '\'' := by simpa using hrest
      simp [readQuoted, hc]
  | cons c cs ih =>
    rw [List.mem_cons, not_or] at hcs
    obtain ⟨hc, hcs'⟩ := hcs
    have hstep : readQuoted (c :: (cs ++ '\'' :: rest)) =
        (readQuoted (cs ++ '\'' :: rest)).map fun (cs, rest) => (c :: cs, rest) := by
      rw [readQuoted]
      · exact fun _ h _ => hc h.symm
      · exact fun h => hc h.symm
    rw [List.cons_append, hstep, ih hcs']
    rfl

theorem readInteger_write (n : Int64) : readInteger (Decimal.write n.toInt) = some n := by
  simp [readInteger, Decimal.readInt64_write]

/-! ### How keys are written -/

/-- The characters from `+` to `@`, digits and signs among them. -/
def IsPlainChar (c : Char) : Prop := 0x2B ≤ c.toNat ∧ c.toNat ≤ 0x40

theorem isPlainChar_mark : IsPlainChar '@' := ⟨by decide, by decide⟩

theorem isBreak_eq_false {c : Char} (h : IsPlainChar c) : isBreak c = false := by
  obtain ⟨hlow, hhigh⟩ := h
  have hfeed : c ≠ '\n' := by
    rintro rfl
    exact absurd hlow (by decide)
  have hreturn : c ≠ '\r' := by
    rintro rfl
    exact absurd hlow (by decide)
  simp only [isBreak, hfeed, hreturn, decide_false, Bool.false_or, Bool.or_eq_false_iff,
    decide_eq_false_iff_not]
  omega

theorem isWritable_eq_true {c : Char} (h : IsPlainChar c) : isWritable c = true := by
  obtain ⟨hlow, hhigh⟩ := h
  simp only [isWritable, Bool.or_eq_true, Bool.and_eq_true, decide_eq_true_eq]
  omega

theorem ne_of_isPlainChar {c d : Char} (h : IsPlainChar c) (hd : d.toNat < 0x2B) : c ≠ d := by
  rintro rfl
  exact absurd h.1 (by omega)

variable {cs : List Char}

theorem any_isBreak_eq_false (h : ∀ c ∈ cs, IsPlainChar c) : cs.any isBreak = false := by
  rw [List.any_eq_false]
  intro c hc
  simp [isBreak_eq_false (h c hc)]

/-- Pairs of a character and the one before it. -/
theorem mem_withPrevious {start : Char} {pair : Char × Char} (h : pair ∈ withPrevious start cs) :
    (pair.1 = start ∨ pair.1 ∈ cs) ∧ pair.2 ∈ cs := by
  obtain ⟨previous, c⟩ := pair
  have hmem := List.of_mem_zip h
  exact ⟨List.mem_cons.mp hmem.1, hmem.2⟩

theorem fitsSingle_eq_true (h : ∀ c ∈ cs, IsPlainChar c) : fitsSingle cs = true := by
  have hbreakSpace : hasBreakSpace cs = false := by
    rw [hasBreakSpace, List.any_eq_false]
    intro pair hpair
    have hspace := ne_of_isPlainChar (d := ' ') (h _ (mem_withPrevious hpair).2) (by decide)
    simp [hspace]
  have hspaceBreak : hasSpaceBreak cs = false := by
    rw [hasSpaceBreak, List.any_eq_false]
    intro pair hpair
    simp [isBreak_eq_false (h _ (mem_withPrevious hpair).2)]
  have hspecial : hasSpecial cs = false := by
    rw [hasSpecial, List.any_eq_false]
    intro c hc
    simp [isWritable_eq_true (h c hc)]
  have htab : '\t' ∉ cs := fun hmem => ne_of_isPlainChar (h _ hmem) (by decide) rfl
  simp [fitsSingle, hbreakSpace, hspaceBreak, hspecial, htab]

/-- A text without quotes and line breaks is written in single quotes as it
is. -/
theorem singleText_eq (h : ∀ c ∈ cs, IsPlainChar c) : singleText cs = '\'' :: cs ++ ['\''] := by
  have hlines : indented singleEscape 'x' cs = cs := by
    calc indented singleEscape 'x' cs
        = (withPrevious 'x' cs).flatMap fun pair => [pair.2] := by
          refine List.flatMap_congr fun pair hpair => ?_
          obtain ⟨hprevious, hc⟩ := mem_withPrevious hpair
          have hline : isBreak pair.1 = false := by
            rcases hprevious with hstart | hmem
            · rw [hstart]
              decide
            · exact isBreak_eq_false (h _ hmem)
          have hquote : pair.2 ≠ '\'' := ne_of_isPlainChar (h _ hc) (by decide)
          simp [hline, singleEscape, hquote]
      _ = (withPrevious 'x' cs).map Prod.snd := List.map_eq_flatMap.symm
      _ = cs := List.map_snd_zip (by simp)
  rw [singleText, hlines]

/-- Nothing that starts with a mark reads as another value than itself. -/
theorem readsAsText_marked (cs : List Char) : readsAsText ('@' :: cs) = true := by
  have hwords : ∀ words : List String, (words.all fun w => w.toList.head? != some '@') = true →
      words.contains (String.ofList ('@' :: cs)) = false := by
    intro words hheads
    rw [← Bool.not_eq_true, List.contains_iff_mem]
    intro hmem
    have hhead := List.all_eq_true.mp hheads _ hmem
    simp at hhead
  have hnumber : readsAsNumber ('@' :: cs) = false := by
    simp [readsAsNumber]
  have htime : Timestamp.reads ('@' :: cs) = false := by
    simp [Timestamp.reads, Timestamp.date?]
  rw [readsAsText, hwords valueWords (by decide), hwords oldWords (by decide), hnumber, htime]
  rfl

theorem style_marked (h : ∀ c ∈ cs, IsPlainChar c) : style ('@' :: cs) = .single := by
  have hall : ∀ c ∈ '@' :: cs, IsPlainChar c := List.forall_mem_cons.mpr ⟨isPlainChar_mark, h⟩
  have hfeed : '\n' ∉ '@' :: cs := fun hmem => ne_of_isPlainChar (hall _ hmem) (by decide) rfl
  have hplain : fitsPlain ('@' :: cs) = false := by
    have hlead : hasLeadIndicator ('@' :: cs) = true := by
      simp [hasLeadIndicator, leadIndicators]
    simp [fitsPlain, hlead]
  simp only [style, List.contains_iff_mem, hfeed, readsAsText_marked, hplain,
    fitsSingle_eq_true hall, if_false, Bool.not_true, Bool.false_eq_true, if_true]

/-- **Keys stand in single quotes**, on one line with their values. -/
theorem entryText_marked (h : ∀ c ∈ cs, IsPlainChar c) (hlen : cs.length < 128)
    (value : List Char) :
    entryText ('@' :: cs) value = '\'' :: '@' :: cs ++ '\'' :: ':' :: ' ' :: value ++ ['\n'] := by
  have hall : ∀ c ∈ '@' :: cs, IsPlainChar c := List.forall_mem_cons.mpr ⟨isPlainChar_mark, h⟩
  have hbytes : byteLength ('@' :: cs) ≤ simpleKeyLimit := by
    rw [byteLength_eq_length fun c hc => ?_]
    · exact hlen
    · rw [Char.utf8Size_eq_one_iff, UInt32.le_iff_toNat_le]
      exact Nat.le_trans (hall c hc).2 (by decide)
  have hsimple : isSimpleKey ('@' :: cs) = true := by
    simp only [isSimpleKey, any_isBreak_eq_false hall, hbytes, Bool.not_false, decide_true,
      Bool.and_self]
  rw [entryText, if_pos hsimple, scalarText, style_marked h]
  simp [singleText_eq hall]

end Yaml

namespace Layout

variable {l m : Layout}

/-! ### Listings by offset -/

/-- A line with an offset and its distance. -/
def offsetLine (e : Int64 × Int64) : List Char :=
  '\'' :: '@' :: Decimal.write e.1.toInt ++ '\'' :: ':' :: ' ' :: Decimal.write e.2.toInt

/-- The YAML document that lists offsets and their distances in this order. -/
def offsetListing : List (Int64 × Int64) → List Char
  | [] => emptyText
  | listed => listed.flatMap fun e => offsetLine e ++ ['\n']

theorem isPlainChar_of_mem_write {n : Int64} {c : Char} (hc : c ∈ Decimal.write n.toInt) :
    Yaml.IsPlainChar c := by
  have hnumeral := Decimal.readInt64_eq_ok_iff.mp (Decimal.readInt64_write n)
  rcases hnumeral.digit_or_sign hc with hdigit | rfl | rfl
  · obtain ⟨hlow, hhigh⟩ : 48 ≤ c.toNat ∧ c.toNat ≤ 57 := Char.isDigit_iff_toNat.mp hdigit
    exact ⟨by omega, by omega⟩
  · exact ⟨by decide, by decide⟩
  · exact ⟨by decide, by decide⟩

theorem yamlEntry_entry (e : Int64 × Int64) : yamlEntry (entry e) = offsetLine e ++ ['\n'] := by
  have hlen := Decimal.length_write e.1
  unfold yamlEntry entry
  rw [Key.toList_ofOffset, Yaml.entryText_marked (fun c hc => isPlainChar_of_mem_write hc) (by omega)]
  rfl

theorem yamlText_eq {listed : List (Int64 × Int64)} (h : l.byNature = listed.map entry) :
    l.yamlText = offsetListing listed := by
  unfold yamlText
  rw [h]
  cases listed with
  | nil => rfl
  | cons e listed => simp [offsetListing, List.flatMap_map, yamlEntry_entry]

theorem readEntry_offsetLine (e : Int64 × Int64) : Yaml.readEntry (offsetLine e) = some (entry e) := by
  have hquote : '\'' ∉ '@' :: Decimal.write e.1.toInt := by
    rw [List.mem_cons, not_or]
    exact ⟨by decide, fun hmem =>
      Yaml.ne_of_isPlainChar (isPlainChar_of_mem_write hmem) (by decide) rfl⟩
  have hread := Yaml.readQuoted_of_not_mem hquote (':' :: ' ' :: Decimal.write e.2.toInt) (by simp)
  have hline : offsetLine e = '\'' :: (('@' :: Decimal.write e.1.toInt) ++
      '\'' :: ':' :: ' ' :: Decimal.write e.2.toInt) := rfl
  rw [hline, Yaml.readEntry]
  simp only [hread, Yaml.readInteger_write]
  rfl

theorem feed_not_mem_offsetLine (e : Int64 × Int64) : '\n' ∉ offsetLine e := by
  simp [offsetLine, Decimal.feed_not_mem_write]

/-- What is listed is read back in its order. -/
theorem readMapping_offsetListing (listed : List (Int64 × Int64)) :
    Yaml.readMapping (offsetListing listed) = some (listed.map entry) := by
  cases listed with
  | nil => simp [offsetListing, Yaml.readMapping]
  | cons e listed =>
    have hlines : offsetListing (e :: listed) =
        ((e :: listed).map offsetLine).flatMap (· ++ ['\n']) := by
      simp [offsetListing, List.flatMap_map]
    have hempty : offsetListing (e :: listed) ≠ emptyText := by
      simp [offsetListing, offsetLine, emptyText]
    have hraw : rawLines (offsetListing (e :: listed)) = (e :: listed).map offsetLine := by
      rw [hlines]
      apply rawLines_flatMap
      simp only [List.forall_mem_map]
      exact fun e _ => feed_not_mem_offsetLine e
    rw [Yaml.readMapping, if_neg hempty, hraw]
    generalize e :: listed = lines
    induction lines with
    | nil => rfl
    | cons e lines ih => simp [readEntry_offsetLine, ih]

theorem offsetListing_injective : Function.Injective offsetListing := by
  intro xs ys h
  have hread := readMapping_offsetListing xs
  rw [h, readMapping_offsetListing] at hread
  exact (entry_injective.list_map (Option.some.inj hread)).symm

/-- The document of a keyed layout is a listing of its offsets in natural
order. -/
theorem Keyed.exists_listing (h : l.Keyed) :
    ∃ listed, l.byNature = listed.map entry ∧ l.yamlText = offsetListing listed := by
  obtain ⟨listed, hlisted⟩ := h.exists_entries fun e he => l.byNature_perm.mem_iff.mp he
  exact ⟨listed, hlisted, yamlText_eq hlisted⟩

/-- The YAML document of a keyed layout has its entries in natural order. -/
theorem Keyed.readMapping_yamlText (h : l.Keyed) :
    Yaml.readMapping l.yamlText = some l.byNature := by
  obtain ⟨listed, hlisted, htext⟩ := h.exists_listing
  rw [htext, readMapping_offsetListing, hlisted]

end Layout

/-! ### Formats by name -/

namespace Format

/-- The name by which a format is asked for. -/
def name : Format → String
  | .json => "json"
  | .yaml => "yaml"

/-- The entries in a document of this format, in the order of the document. -/
def read : Format → List Char → Option (List (String × Int64))
  | .json => Layout.readJson
  | .yaml => Yaml.readMapping

theorem ofName_name (f : Format) : ofName f.name = .ok f := by
  cases f <;> rfl

theorem ofName_eq_error {name : String} (h : ∀ f : Format, f.name ≠ name) :
    ofName name = .error ⟨name⟩ := by
  have hjson : name ≠ "json" := (h .json).symm
  have hyaml : name ≠ "yaml" := (h .yaml).symm
  rw [ofName, if_neg hjson, if_neg hyaml]

end Format

namespace Layout

variable {l m : Layout}

theorem render_name (f : Format) (k : Option Layout) :
    render f.name k = .ok (String.ofList (document f k)) := by
  rw [render, Format.ofName_name]
  rfl

theorem render_name_inj {f : Format} {j k : Option Layout} :
    render f.name j = render f.name k ↔ document f j = document f k := by
  rw [render_name, render_name, Except.ok.injEq, String.ofList_inj]

theorem render_yaml {listed : List (Int64 × Int64)} (h : l.byNature = listed.map entry) :
    render "yaml" (some l) = .ok (String.ofList (offsetListing listed)) := by
  rw [← yamlText_eq h]
  exact render_name .yaml (some l)

/-- What is read from the document of a layout are its entries. -/
theorem Keyed.exists_read (h : l.Keyed) (f : Format) :
    ∃ entries, f.read (document f (some l)) = some entries ∧ entries.Perm l.entries := by
  cases f with
  | json => exact ⟨l.byBytes, readJson_jsonText l, l.byBytes_perm⟩
  | yaml => exact ⟨l.byNature, h.readMapping_yamlText, l.byNature_perm⟩

theorem read_absent (f : Format) : f.read (document f none) = some [] := by
  cases f with
  | json => decide
  | yaml => exact readMapping_offsetListing []

theorem Keyed.perm_of_document_eq (hm : m.Keyed) (hl : l.Keyed) {f : Format}
    (h : document f (some m) = document f (some l)) : m.entries.Perm l.entries := by
  obtain ⟨entries, hread, hperm⟩ := hm.exists_read f
  obtain ⟨entries', hread', hperm'⟩ := hl.exists_read f
  rw [h, hread'] at hread
  obtain rfl : entries' = entries := Option.some.inj hread
  exact hperm.symm.trans hperm'

/-- The YAML document shows the order of the entries if and only if there is a
circle. -/
theorem Keyed.yamlText_eq_iff (h : l.Keyed) :
    (∀ m : Layout, m.entries.Perm l.entries → m.yamlText = l.yamlText) ↔ ¬ l.Tangled := by
  constructor
  · intro hsame htangled
    obtain ⟨m, hperm, hne⟩ := exists_byNature_ne h htangled
    apply hne
    have hread := (h.perm hperm).readMapping_yamlText
    rw [hsame m hperm, h.readMapping_yamlText] at hread
    exact (Option.some.inj hread).symm
  · intro hfree m hperm
    unfold yamlText
    rw [byNature_eq_of_perm h hfree hperm]

/-- **Documents keep their layouts.** In either format the entries are read
back, each of them once, and no two layouts share a document. JSON never shows
in which order the entries were held, YAML only if there is a circle. No other
name is that of a format. -/
theorem documents_read_back {l : Layout} (hl : l.Keyed) :
    (∀ f : Format, ∃ text entries, render f.name (some l) = .ok text ∧
        f.read text.toList = some entries ∧ entries.Perm l.entries) ∧
      (∀ f : Format, ∃ text, render f.name none = .ok text ∧ f.read text.toList = some []) ∧
      (∀ (f : Format) (m : Layout), m.Keyed →
        render f.name (some m) = render f.name (some l) → m.entries.Perm l.entries) ∧
      (∀ m : Layout, m.entries.Perm l.entries →
        render "json" (some m) = render "json" (some l)) ∧
      ((∀ m : Layout, m.entries.Perm l.entries →
        render "yaml" (some m) = render "yaml" (some l)) ↔ ¬ l.Tangled) ∧
      ∀ name : String, (∀ f : Format, f.name ≠ name) → ∀ k : Option Layout,
        ∃ e, render name k = .error e ∧ e.message = "unknown format " ++ Quoted.text name := by
  refine ⟨fun f => ?_, fun f => ?_, fun f m hm htext => ?_, fun m hperm => ?_, ?_,
    fun name hname k => ?_⟩
  · obtain ⟨entries, hread, hperm⟩ := hl.exists_read f
    refine ⟨_, entries, render_name f (some l), ?_, hperm⟩
    rwa [String.toList_ofList]
  · refine ⟨_, render_name f none, ?_⟩
    rw [String.toList_ofList, read_absent]
  · exact hm.perm_of_document_eq hl (render_name_inj.mp htext)
  · have hdocument : m.jsonText = l.jsonText := by
      unfold jsonText
      rw [byBytes_eq_of_perm hl hperm]
    exact (render_name_inj (f := .json)).mpr hdocument
  · rw [← hl.yamlText_eq_iff]
    exact forall₂_congr fun m _ => render_name_inj (f := .yaml)
  · refine ⟨⟨name⟩, ?_, rfl⟩
    rw [render, Format.ofName_eq_error hname]
    rfl

/-- From the least offset to the greatest, given out of order. -/
theorem documents_read_back_extremes :
    (Accumulator.collecting [Int64.maxValue, -8, Int64.minValue, 0]).finalize.2 =
        .ok ⟨[(Int64.minValue, 9223372036854775800), (-8, 8), (0, Int64.maxValue)].map entry⟩ ∧
      ∀ f : Format, ∃ text entries,
        render f.name (some ⟨[(Int64.minValue, 9223372036854775800), (-8, 8),
          (0, Int64.maxValue)].map entry⟩) = .ok text ∧
        f.read text.toList = some entries ∧
        entries.Perm ([(Int64.minValue, 9223372036854775800), (-8, 8),
          (0, Int64.maxValue)].map entry) := by
  have hlayout : (Accumulator.collecting [Int64.maxValue, -8, Int64.minValue, 0]).finalize.2 =
      .ok ⟨[(Int64.minValue, 9223372036854775800), (-8, 8), (0, Int64.maxValue)].map entry⟩ := by
    cbv
  exact ⟨hlayout, (documents_read_back (keyed_of_finalize hlayout)).1⟩

/-- Three offsets in a circle, given out of order: the layout has one document
with its entries listed one way and another with two of them exchanged. -/
theorem yaml_shows_order_of_entries :
    (Accumulator.collecting [0, -8, Int64.minValue, -91]).finalize.2 =
        .ok ⟨[(Int64.minValue, 9223372036854775717), (-91, 83), (-8, 8)].map entry⟩ ∧
      render "yaml" (some ⟨[(Int64.minValue, 9223372036854775717), (-91, 83), (-8, 8)].map entry⟩) =
        .ok "'@-91': 83\n'@-9223372036854775808': 9223372036854775717\n'@-8': 8\n" ∧
      render "yaml" (some ⟨[(Int64.minValue, 9223372036854775717), (-8, 8), (-91, 83)].map entry⟩) =
        .ok "'@-9223372036854775808': 9223372036854775717\n'@-8': 8\n'@-91': 83\n" := by
  have h₁ : keyLess (Key.ofOffset (-8)) (Key.ofOffset (-91)) = true := by decide
  have h₂ : keyLess (Key.ofOffset (-91)) (Key.ofOffset Int64.minValue) = true := by decide
  have h₃ : keyLess (Key.ofOffset Int64.minValue) (Key.ofOffset (-8)) = true := by decide
  refine ⟨by cbv, ?_, ?_⟩
  · have hnature : byNature ⟨[(Int64.minValue, 9223372036854775717), (-91, 83), (-8, 8)].map entry⟩ =
        [(-91, 83), (Int64.minValue, 9223372036854775717), (-8, 8)].map entry := by
      rw [byNature, Sorting.sort_of_few (by decide)]
      simp [Sorting.insertionSort, Sorting.insertPast, entry, h₂, keyLess_asymm h₃]
    rw [render_yaml hnature]
    cbv
  · have hnature : byNature ⟨[(Int64.minValue, 9223372036854775717), (-8, 8), (-91, 83)].map entry⟩ =
        [(Int64.minValue, 9223372036854775717), (-8, 8), (-91, 83)].map entry := by
      rw [byNature, Sorting.sort_of_few (by decide)]
      simp [Sorting.insertionSort, Sorting.insertPast, entry, keyLess_asymm h₁, keyLess_asymm h₃]
    rw [render_yaml hnature]
    cbv

/-! ### Numeric order -/

/-- Without displaced offsets, the natural order is the numeric order. -/
theorem Keyed.pairwise_precedes (h : l.Keyed)
    (hfree : ∀ x y, l.Holds x → l.Holds y → ¬ Displaced x y) {listed : List (Int64 × Int64)}
    (hlisted : l.byNature = listed.map entry) : listed.Pairwise fun e f => Precedes e.1 f.1 := by
  have huntangled : ¬ l.Tangled := fun ⟨p, _, hcircle, hmin, hp, _⟩ =>
    hfree _ p hmin hp hcircle.displaced
  have hsorted : l.byNature.Pairwise fun e f => keyLess f.1 e.1 = false :=
    Sorting.sort_pairwise (h.isOrderOn huntangled)
  have hdistinct : (l.byNature.map Prod.fst).Nodup := (l.byNature_perm.map _).nodup_iff.mpr h.nodup
  have hheld : ∀ e ∈ listed, l.Holds e.1 := fun e he =>
    ⟨e.2, l.byNature_perm.mem_iff.mp (hlisted ▸ List.mem_map_of_mem he)⟩
  rw [hlisted, List.pairwise_map] at hsorted
  rw [hlisted, List.map_map, List.Nodup, List.pairwise_map] at hdistinct
  refine (hsorted.and hdistinct).imp_of_mem fun {e f} he hf hef => ?_
  obtain ⟨hle, hne⟩ := hef
  have hoffsets : e.1 ≠ f.1 := fun heq => hne (congrArg Key.ofOffset heq)
  have hless : keyLess (Key.ofOffset e.1) (Key.ofOffset f.1) = true :=
    (keyLess_total hoffsets).resolve_right (by simpa [entry] using hle)
  rcases keyLess_iff.mp hless with hdisplaced | ⟨hprecedes, -⟩
  · exact absurd hdisplaced (hfree _ _ (hheld e he) (hheld f hf))
  · exact hprecedes

/-- An offset that is displaced can stand before one that it does not precede. -/
theorem Keyed.exists_displaced (h : l.Keyed) {x y : Int64} (hx : l.Holds x) (hy : l.Holds y)
    (hdisplaced : Displaced x y) :
    ∃ z d e, Displaced x z ∧ ∃ m : Layout, m.entries.Perm l.entries ∧
      [entry (x, d), entry (z, e)].Sublist m.byNature := by
  obtain rfl := hdisplaced.1
  by_cases htangled : l.Tangled
  · obtain ⟨p, d, e, hp, hfirst, -⟩ := h.exists_orders htangled
    exact ⟨p, d, e, hp, hfirst⟩
  · obtain ⟨d, hx⟩ := hx
    obtain ⟨e, hy⟩ := hy
    have hless : keyLess (Key.ofOffset Int64.minValue) (Key.ofOffset y) = true :=
      keyLess_iff.mpr (.inl hdisplaced)
    refine ⟨y, d, e, hdisplaced, l, .refl _, ?_⟩
    refine Sorting.sublist_of_pairwise (Sorting.sort_pairwise (h.isOrderOn htangled))
      (l.byNature_perm.mem_iff.mpr hx) (l.byNature_perm.mem_iff.mpr hy) (fun heq => ?_) hless
    obtain ⟨hoffset, -⟩ := Prod.mk.inj (entry_injective heq)
    rw [← hoffset, keyLess_irrefl] at hless
    cases hless

/-- A displaced offset can stand out of its numeric order. -/
theorem Keyed.exists_not_pairwise_precedes (h : l.Keyed) {x y : Int64} (hx : l.Holds x)
    (hy : l.Holds y) (hdisplaced : Displaced x y) :
    ∃ m : Layout, m.entries.Perm l.entries ∧ ∀ listed : List (Int64 × Int64),
      m.byNature = listed.map entry → ¬ listed.Pairwise fun e f => Precedes e.1 f.1 := by
  obtain ⟨z, d, e, hz, m, hperm, hsub⟩ := h.exists_displaced hx hy hdisplaced
  refine ⟨m, hperm, fun listed hlisted hnumeric => ?_⟩
  rw [hlisted] at hsub
  obtain ⟨pair, hpair, heq⟩ := List.sublist_map_iff.mp hsub
  obtain rfl : [(x, d), (z, e)] = pair := entry_injective.list_map heq
  have hprecedes := List.pairwise_iff_forall_sublist.mp hnumeric hpair
  exact precedes_irrefl x (precedes_trans hprecedes hz.precedes)

/-- **YAML documents are in numeric order**, negative offsets first and by
their magnitudes, unless the least offset stands beside a negative one whose
first digit is not nine. -/
theorem yaml_listed_by_value {a : Accumulator} {l : Layout} (hl : a.finalize.2 = .ok l) :
    IsStrictTotalOrder Int64 Precedes ∧
      (∀ x y : Int64, keyLess (Key.ofOffset x) (Key.ofOffset y) = true ↔
        Displaced x y ∨ Precedes x y ∧ ¬ Displaced y x) ∧
      ((∀ m : Layout, m.entries.Perm l.entries → ∃ listed : List (Int64 × Int64),
          listed.Pairwise (fun e f => Precedes e.1 f.1) ∧ (listed.map entry).Perm l.entries ∧
            render "yaml" (some m) = .ok (String.ofList (offsetListing listed))) ↔
        ∀ x y, l.Holds x → l.Holds y → ¬ Displaced x y) := by
  have hkeyed := keyed_of_finalize hl
  refine ⟨isStrictTotalOrder_precedes, fun x y => keyLess_iff,
    fun hnumeric x y hx hy hdisplaced => ?_, fun hfree m hperm => ?_⟩
  · obtain ⟨m, hperm, hnone⟩ := hkeyed.exists_not_pairwise_precedes hx hy hdisplaced
    obtain ⟨listed, hpairwise, -, htext⟩ := hnumeric m hperm
    obtain ⟨natural, hnatural, -⟩ := (hkeyed.perm hperm).exists_listing
    rw [render_yaml hnatural, Except.ok.injEq, String.ofList_inj] at htext
    rw [offsetListing_injective htext] at hnatural
    exact hnone listed hnatural hpairwise
  · obtain ⟨listed, hlisted, -⟩ := (hkeyed.perm hperm).exists_listing
    have hheld : ∀ x, m.Holds x → l.Holds x := fun x ⟨d, hd⟩ => ⟨d, hperm.mem_iff.mp hd⟩
    refine ⟨listed, (hkeyed.perm hperm).pairwise_precedes ?_ hlisted, ?_, render_yaml hlisted⟩
    · exact fun x y hx hy => hfree x y (hheld x hx) (hheld y hy)
    · rw [← hlisted]
      exact m.byNature_perm.trans hperm

/-- Offsets of both signs and of many lengths, down to the one above the
least. -/
theorem yaml_listed_by_value_both_signs :
    (Accumulator.collecting [100, -16, 5, -8, 0, -9223372036854775807]).finalize.2 =
        .ok ⟨[(-9223372036854775807, 9223372036854775791), (-16, 8), (-8, 8), (0, 5), (5, 95)].map
          entry⟩ ∧
      ∀ m : Layout,
        m.entries.Perm ([(-9223372036854775807, 9223372036854775791), (-16, 8), (-8, 8), (0, 5),
          (5, 95)].map entry) →
        ∃ listed : List (Int64 × Int64), listed.Pairwise (fun e f => Precedes e.1 f.1) ∧
          (listed.map entry).Perm ([(-9223372036854775807, 9223372036854775791), (-16, 8), (-8, 8),
            (0, 5), (5, 95)].map entry) ∧
          render "yaml" (some m) = .ok (String.ofList (offsetListing listed)) := by
  have hlayout : (Accumulator.collecting [100, -16, 5, -8, 0, -9223372036854775807]).finalize.2 =
      .ok ⟨[(-9223372036854775807, 9223372036854775791), (-16, 8), (-8, 8), (0, 5), (5, 95)].map
        entry⟩ := by
    cbv
  obtain ⟨-, -, hnumeric⟩ := yaml_listed_by_value hlayout
  refine ⟨hlayout, hnumeric.mpr ?_⟩
  rintro x y ⟨d, hd⟩ - ⟨rfl, -⟩
  have hheld := List.mem_map_of_mem (f := Prod.fst)
    ((List.mem_map_of_injective entry_injective).mp hd)
  change Int64.minValue ∈ _ at hheld
  exact absurd hheld (by decide)

/-- The least offset stands before `-8`, though it is of greater magnitude. -/
theorem least_offset_listed_first :
    (Accumulator.collecting [0, -8, Int64.minValue]).finalize.2 =
        .ok ⟨[(Int64.minValue, 9223372036854775800), (-8, 8)].map entry⟩ ∧
      Precedes (-8) Int64.minValue ∧
      render "yaml" (some ⟨[(Int64.minValue, 9223372036854775800), (-8, 8)].map entry⟩) =
        .ok "'@-9223372036854775808': 9223372036854775800\n'@-8': 8\n" := by
  have hless : keyLess (Key.ofOffset Int64.minValue) (Key.ofOffset (-8)) = true := by decide
  have hnature : byNature ⟨[(Int64.minValue, 9223372036854775800), (-8, 8)].map entry⟩ =
      [(Int64.minValue, 9223372036854775800), (-8, 8)].map entry := by
    rw [byNature, Sorting.sort_of_few (by decide)]
    simp [Sorting.insertionSort, Sorting.insertPast, entry, keyLess_asymm hless]
  have hprecedes : Precedes (-8) Int64.minValue := by
    unfold Precedes
    decide
  refine ⟨by cbv, hprecedes, ?_⟩
  rw [render_yaml hnature]
  cbv

end Layout

end OffsetGaps
