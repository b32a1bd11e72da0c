/-
# One command or many

A column of values can be given to the program's host in one command, or
value by value: an instance is opened, updated once for each value and
finalized, while other commands come in between. Both ways come to the same.
They give the same layout; or they refuse for the same reason, which the
single command tells with the number of the row in front.

The single command follows `OffsetMap.column`. Along the stream the other
commands keep what is held under the identifier (`Exchange.keeps`), an update
is answered from its value alone (`OffsetMap.rowReply`), and the finalize from
all values that were taken (`OffsetMap.takeAll`). What is left is to compare
the two on lists (`OffsetMap.column_cases`).

Key definitions: `Command.concerns`, `Streams`, `Host.repliesTo`.
Key theorems: `Exchange.keeps`, `Host.Holds.repliesTo_eq`,
`OffsetMap.column_cases`, `Host.streaming_agrees`.
-/
import OffsetGaps.Proofs.Exchanges

namespace OffsetGaps

/-- Whether a command is about the instance under an identifier. -/
def Command.concerns (c : Command) (id : String) : Bool :=
  c.id == id && (Verb.ofName? c.type).any Verb.onInstance

/-- The commands bring the values, one by one and in this order, to the
instance under the identifier and then finalize it; other commands may stand
anywhere in between. -/
inductive Streams (id : String) : List Value → List Command → Prop where
  | other {values : List Value} {cs : List Command} (c : Command) (hother : c.concerns id = false) :
    Streams id values cs → Streams id values (c :: cs)
  | update {values : List Value} {cs : List Command} (c : Command)
    (htype : c.type = Verb.update.name) (hid : c.id = id) :
    Streams id values cs → Streams id (c.value :: values) (c :: cs)
  | finalize (c : Command) (htype : c.type = Verb.finalize.name) (hid : c.id = id) :
    Streams id [] [c]

/-- What comes of the commands about an identifier among others. -/
def Host.repliesTo {σ : Type} (id : String) : Host σ → List Command → List Reply
  | _, [] => []
  | h, c :: rest =>
    if c.concerns id then (h.execute c).2 :: Host.repliesTo id (h.execute c).1 rest
    else Host.repliesTo id (h.execute c).1 rest

/-- The reply to a whole column agrees with the replies to its values one by
one and to the finalize behind them. -/
structure Agrees (id : String) (whole : Reply) (updates : List Reply) (last : Reply) : Prop where
  /-- There is a result exactly if every update succeeds and the finalize
  gives it. -/
  result_iff : ∀ result, whole = .answer (.aggregated result) ↔
    (∀ r ∈ updates, r = .answer (.updated id)) ∧ last = .answer (.finalized id result)
  /-- A refusal is that of the first update that is refused, with the row's
  number in front; or every update succeeds, and it is that of the
  finalize. -/
  refused : ∀ code message, whole = .answer (.refused "aggregate" code message) →
    (∃ (i : ℕ) (text : String), (∀ r ∈ updates.take i, r = .answer (.updated id)) ∧
      updates[i]? = some (.answer (.refused "update" code text)) ∧
      message = "row " ++ Decimal.text i ++ ": " ++ text) ∨
    (∀ r ∈ updates, r = .answer (.updated id)) ∧ last = .answer (.refused "finalize" code message)

/-- A command has one verb. -/
theorem Command.verb_unique {c : Command} {v w : Verb} (hv : c.type = v.name)
    (hw : c.type = w.name) : v = w := by
  have hfound := Verb.ofName_eq_some_iff.mpr hv
  rw [Verb.ofName_eq_some_iff.mpr hw] at hfound
  exact (Option.some.inj hfound).symm

theorem Command.concerns_self {c : Command} {verb : Verb} (hverb : c.type = verb.name)
    (hkind : verb.onInstance = true) : c.concerns c.id = true := by
  rw [concerns, Verb.ofName_eq_some_iff.mpr hverb, beq_self_eq_true, Bool.true_and]
  exact hkind

namespace OffsetMap

/-- What a value is answered with. -/
def rowReply (strict : Bool) (id : String) (v : Value) : Reply :=
  .ofOutcome .update (fun _ => .updated id) (.ofExcept (readRow strict [v]))

/-- What the request for the layout of offsets is answered with. -/
def resultReply (id : String) (taken : List Int64) : Reply :=
  .ofOutcome .finalize (fun l => .finalized id (.layout l)) (.ofExcept (layoutOf taken))

/-- The offsets held after a value. -/
def takeRow (strict : Bool) (taken : List Int64) (v : Value) : List Int64 :=
  match readRow strict [v] with
  | .ok offset => offset.toList ++ taken
  | .error _ => taken

/-- The offsets held after some values. -/
def takeAll (strict : Bool) (taken : List Int64) (values : List Value) : List Int64 :=
  values.foldl (takeRow strict) taken

end OffsetMap

/-! ### A command by the rules -/

namespace Exchange

variable {strict : Bool} {T T' : Holdings} {c : Command} {reply : Reply} {taken : List Int64}

/-- A command about another identifier leaves the entry alone. -/
theorem keeps {id : String} (he : Exchange strict T c reply T') (hother : c.concerns id = false)
    (hheld : T id = some taken) : T' id = some taken := by
  have hne : ∀ {verb : Verb}, c.type = verb.name → verb.onInstance = true → id ≠ c.id := by
    rintro verb hverb hkind rfl
    rw [Command.concerns_self hverb hkind] at hother
    cases hother
  cases he with
  | init | functions | shutdown | unsupported | unknownFunction | exhausted | unknownInstance
    | rowRefused | aggregated | columnRefused => exact hheld
  | opened hverb hname hnew =>
    rw [Holdings.put_ne, hheld]
    rintro rfl
    rw [hheld] at hnew
    cases hnew
  | updated hverb => rw [Holdings.put_ne (hne hverb rfl), hheld]
  | finalized hverb => rw [Holdings.put_ne (hne hverb rfl), hheld]
  | overflowed hverb => rw [Holdings.put_ne (hne hverb rfl), hheld]
  | discarded hverb => rw [Holdings.put_ne (hne hverb rfl), hheld]

/-- An update of an open instance is answered from its value. -/
theorem of_update (he : Exchange strict T c reply T') (htype : c.type = Verb.update.name)
    (hheld : T c.id = some taken) :
    reply = OffsetMap.rowReply strict c.id c.value ∧
      T' c.id = some (OffsetMap.takeRow strict taken c.value) := by
  cases he with
  | init hverb | functions hverb | shutdown hverb | opened hverb | exhausted hverb | finalized hverb
    | overflowed hverb | discarded hverb | aggregated hverb | columnRefused hverb =>
    cases Command.verb_unique hverb htype
  | unsupported hverb => exact absurd htype (hverb _)
  | unknownFunction hverb hkind =>
    obtain rfl := Command.verb_unique hverb htype
    rcases hkind with hkind | hkind <;> cases hkind
  | unknownInstance hverb hkind hnone => rw [hheld] at hnone; cases hnone
  | updated hverb hheld' hrow =>
    obtain rfl := Option.some.inj (hheld.symm.trans hheld')
    rw [OffsetMap.rowReply, OffsetMap.takeRow, hrow, Holdings.put_self]
    exact ⟨rfl, rfl⟩
  | rowRefused hverb hheld' hrow =>
    rw [OffsetMap.rowReply, OffsetMap.takeRow, hrow]
    exact ⟨rfl, hheld⟩

/-- A finalize of an open instance is answered from what it holds. -/
theorem of_finalize (he : Exchange strict T c reply T') (htype : c.type = Verb.finalize.name)
    (hheld : T c.id = some taken) : reply = OffsetMap.resultReply c.id taken := by
  cases he with
  | init hverb | functions hverb | shutdown hverb | opened hverb | exhausted hverb | updated hverb
    | rowRefused hverb | discarded hverb | aggregated hverb | columnRefused hverb =>
    cases Command.verb_unique hverb htype
  | unsupported hverb => exact absurd htype (hverb _)
  | unknownFunction hverb hkind =>
    obtain rfl := Command.verb_unique hverb htype
    rcases hkind with hkind | hkind <;> cases hkind
  | unknownInstance hverb hkind hnone => rw [hheld] at hnone; cases hnone
  | finalized hverb hheld' hlayout =>
    obtain rfl := Option.some.inj (hheld.symm.trans hheld')
    rw [OffsetMap.resultReply, hlayout]
    rfl
  | overflowed hverb hheld' hlayout =>
    obtain rfl := Option.some.inj (hheld.symm.trans hheld')
    rw [OffsetMap.resultReply, hlayout]
    rfl

/-- An aggregate is answered from its function and its values. -/
theorem of_aggregate (he : Exchange strict T c reply T') (htype : c.type = Verb.aggregate.name) :
    reply =
      if c.function = OffsetMap.descriptor.qualifiedName then
        .ofOutcome .aggregate (fun l => .aggregated (.layout l))
          (.ofExcept (OffsetMap.column strict 0 (c.values.getD []) []))
      else .refusal .aggregate (.unknownFunction c.function) := by
  cases he with
  | init hverb | functions hverb | shutdown hverb | opened hverb | exhausted hverb | updated hverb
    | rowRefused hverb | finalized hverb | overflowed hverb | discarded hverb =>
    cases Command.verb_unique hverb htype
  | unsupported hverb => exact absurd htype (hverb _)
  | unknownFunction hverb hkind hname =>
    obtain rfl := Command.verb_unique hverb htype
    rw [if_neg hname]
  | unknownInstance hverb hkind hnone =>
    obtain rfl := Command.verb_unique hverb htype
    cases hkind
  | aggregated hverb hname hcolumn =>
    rw [if_pos hname, hcolumn]
    rfl
  | columnRefused hverb hname hcolumn =>
    rw [if_pos hname, hcolumn]
    rfl

/-- An open gives an identifier that holds nothing yet, or is refused for its
function, or finds no identifier. -/
theorem of_openInstance (he : Exchange strict T c reply T')
    (htype : c.type = Verb.openInstance.name) :
    (c.function = OffsetMap.descriptor.qualifiedName ∧
        ∃ id, reply = .answer (.opened id) ∧ T' id = some []) ∨
      (c.function ≠ OffsetMap.descriptor.qualifiedName ∧
        reply = .refusal .openInstance (.unknownFunction c.function)) ∨
      reply = .abort "no free identifier" ∧ ∀ b : Block, T (identifier b) ≠ none := by
  cases he with
  | init hverb | functions hverb | shutdown hverb | updated hverb | rowRefused hverb | finalized hverb
    | overflowed hverb | discarded hverb | aggregated hverb | columnRefused hverb =>
    cases Command.verb_unique hverb htype
  | unsupported hverb => exact absurd htype (hverb _)
  | unknownFunction hverb hkind hname =>
    obtain rfl := Command.verb_unique hverb htype
    exact Or.inr (Or.inl ⟨hname, rfl⟩)
  | unknownInstance hverb hkind hnone =>
    obtain rfl := Command.verb_unique hverb htype
    cases hkind
  | opened hverb hname hnew => exact Or.inl ⟨hname, _, rfl, Holdings.put_self⟩
  | exhausted hverb hname hall => exact Or.inr (Or.inr ⟨rfl, hall⟩)

end Exchange

/-! ### A stream by the rules -/

namespace Host

/-- **A stream.** Whatever the other commands, each value is answered for
itself, and the layout is asked for of all values that were taken. -/
theorem Holds.repliesTo_eq {strict : Bool} {id : String} {values : List Value} {cs : List Command}
    (hstream : Streams id values cs) : ∀ {h : OffsetHost} {T : Holdings} {cell : String → ℕ}
    {taken : List Int64}, Holds strict h T cell → T id = some taken →
      h.repliesTo id cs = values.map (OffsetMap.rowReply strict id) ++
        [OffsetMap.resultReply id (OffsetMap.takeAll strict taken values)] := by
  induction hstream with
  | other c hother _ ih =>
    intro h T cell taken hh hheld
    obtain ⟨T', cell', he, hh'⟩ := hh.exchange c
    rw [repliesTo, hother, if_neg (by simp)]
    exact ih hh' (he.keeps hother hheld)
  | update c htype hid _ ih =>
    intro h T cell taken hh hheld
    obtain ⟨T', cell', he, hh'⟩ := hh.exchange c
    subst hid
    obtain ⟨hreply, hheld'⟩ := he.of_update htype hheld
    rw [repliesTo, if_pos (Command.concerns_self htype rfl), hreply, ih hh' hheld']
    rfl
  | finalize c htype hid =>
    intro h T cell taken hh hheld
    obtain ⟨T', cell', he, -⟩ := hh.exchange c
    subst hid
    rw [repliesTo, if_pos (Command.concerns_self htype rfl), he.of_finalize htype hheld]
    rfl

end Host

/-! ### The two ways compared -/

namespace OffsetMap

variable {strict : Bool}

theorem rowReply_of_ok {id : String} {v : Value} {offset : Option Int64}
    (hrow : readRow strict [v] = .ok offset) : rowReply strict id v = .answer (.updated id) := by
  rw [rowReply, hrow]
  rfl

/-- A column is refused for its first value that is refused; if there is none,
its layout is that of all its offsets. -/
theorem column_cases : ∀ (values : List Value) (index : ℕ) (taken : List Int64),
    (∃ before v rest e, values = before ++ v :: rest ∧
        (∀ w ∈ before, ∃ offset, readRow strict [w] = .ok offset) ∧ readRow strict [v] = .error e ∧
        column strict index values taken = .error (.row (index + before.length) e)) ∨
      (∀ w ∈ values, ∃ offset, readRow strict [w] = .ok offset) ∧
        column strict index values taken = layoutOf (takeAll strict taken values)
  | [], _, _ => Or.inr ⟨fun _ hw => (by cases hw), rfl⟩
  | v :: rest, index, taken => by
    cases hrow : readRow strict [v] with
    | error e =>
      refine Or.inl ⟨[], v, rest, e, rfl, fun _ hw => (by cases hw), hrow, ?_⟩
      rw [column, hrow]
      rfl
    | ok offset =>
      have hcolumn : column strict index (v :: rest) taken =
          column strict (index + 1) rest (offset.toList ++ taken) := by rw [column, hrow]
      have htake : takeAll strict taken (v :: rest) = takeAll strict (offset.toList ++ taken) rest := by
        rw [takeAll, List.foldl_cons, takeRow, hrow]
        rfl
      rw [hcolumn, htake]
      rcases column_cases rest (index + 1) (offset.toList ++ taken) with
        ⟨before, w, rest', e, rfl, hbefore, hw, heq⟩ | ⟨hall, heq⟩
      · refine Or.inl ⟨v :: before, w, rest', e, rfl, ?_, hw, ?_⟩
        · exact List.forall_mem_cons.mpr ⟨⟨offset, hrow⟩, hbefore⟩
        · rw [heq, List.length_cons, Nat.add_assoc, Nat.add_comm 1]
      · exact Or.inr ⟨List.forall_mem_cons.mpr ⟨⟨offset, hrow⟩, hall⟩, heq⟩

/-- What comes of a column agrees with what comes of its stream. -/
theorem agrees_column (id : String) (values : List Value) :
    Agrees id
      (.ofOutcome .aggregate (fun l => .aggregated (.layout l)) (.ofExcept (column strict 0 values [])))
      (values.map (rowReply strict id)) (resultReply id (takeAll strict [] values)) := by
  have htaken : ∀ {ws : List Value}, (∀ w ∈ ws, ∃ offset, readRow strict [w] = .ok offset) →
      ∀ r ∈ ws.map (rowReply strict id), r = .answer (.updated id) := by
    intro ws hws r hr
    obtain ⟨w, hw, rfl⟩ := List.mem_map.mp hr
    obtain ⟨offset, hrow⟩ := hws w hw
    exact rowReply_of_ok hrow
  rcases column_cases values 0 [] with ⟨before, v, rest, e, rfl, hbefore, hrow, heq⟩ | ⟨hall, heq⟩
  · rw [heq, Nat.zero_add]
    have hv : rowReply strict id v = .refusal .update e := by rw [rowReply, hrow]; rfl
    refine ⟨fun result => ⟨fun h => (by cases h), fun h => ?_⟩, fun code message h => Or.inl ?_⟩
    · have hmem : rowReply strict id v ∈ (before ++ v :: rest).map (rowReply strict id) :=
        List.mem_map.mpr ⟨v, by simp, rfl⟩
      have hupdated := h.1 _ hmem
      rw [hv] at hupdated
      cases hupdated
    · obtain ⟨-, hcode, hmessage⟩ := Answer.refused.inj (Reply.answer.inj h)
      refine ⟨before.length, e.message, ?_, ?_, hmessage.symm⟩
      · rw [List.map_append, List.take_left' (List.length_map _)]
        exact htaken hbefore
      · rw [List.map_append, List.getElem?_append_right (by simp), List.length_map, Nat.sub_self,
          List.map_cons, List.getElem?_cons_zero, hv, ← hcode]
        rfl
  · have hupdates := htaken hall
    rw [heq, resultReply]
    cases layoutOf (takeAll strict [] values) with
    | ok l =>
      refine ⟨fun result => ⟨fun h => ⟨hupdates, ?_⟩, fun h => ?_⟩, fun code message h => (by cases h)⟩
      · obtain rfl := Answer.aggregated.inj (Reply.answer.inj h)
        rfl
      · obtain ⟨-, rfl⟩ := Answer.finalized.inj (Reply.answer.inj h.2)
        rfl
    | error e =>
      refine ⟨fun result => ⟨fun h => (by cases h), fun h => (by cases h.2)⟩, fun code message h => ?_⟩
      obtain ⟨-, rfl, rfl⟩ := Answer.refused.inj (Reply.answer.inj h)
      exact Or.inr ⟨hupdates, rfl⟩

end OffsetMap

namespace Host

/-- **One command or many.** Take the host after any commands, and another
after any others. An aggregate is given to the first, and an open of the same
function to the second. The aggregate has a result or is refused. If the open
is refused, so is the aggregate, with the same code and message. If the open
gives an identifier, let commands bring the aggregate's values to it one by
one and finalize it, among any other commands: each of them has its reply,
and the reply to the aggregate agrees with them. -/
theorem streaming_agrees (strict : Bool) (supply supply' : Supply) (complaint : List Char → String)
    (before before' : List Command) (whole start : Command) (hwhole : whole.type = "aggregate") (hstart : start.type = "open")
    (hfunction : whole.function = start.function) :
    let reply := (((newHost strict supply complaint).afterCommands before).execute whole).2
    let h := (newHost strict supply' complaint).afterCommands before'
    let opened := h.execute start
    ((∃ result, reply = .answer (.aggregated result)) ∨
      ∃ code message, reply = .answer (.refused "aggregate" code message)) ∧
    ((∃ id, opened.2 = .answer (.opened id)) ∨
      (∃ code message, opened.2 = .answer (.refused "open" code message) ∧
        reply = .answer (.refused "aggregate" code message)) ∨
      opened.2 = .abort "no free identifier" ∧ h.Exhausted) ∧
    ∀ id cs, opened.2 = .answer (.opened id) → Streams id (whole.values.getD []) cs →
      ∃ updates last, opened.1.repliesTo id cs = updates ++ [last] ∧
        updates.length = (whole.values.getD []).length ∧ Agrees id reply updates last := by
  intro reply h opened
  obtain ⟨T, cell, hh, -⟩ := exists_holds strict supply complaint before
  obtain ⟨T₁, cell₁, he, -⟩ := hh.exchange whole
  have hreply : reply = _ := he.of_aggregate hwhole
  rw [hfunction] at hreply
  obtain ⟨T₂, cell₂, hh₂, -⟩ := exists_holds strict supply' complaint before'
  obtain ⟨T₃, cell₃, he₃, hh₃⟩ := hh₂.exchange start
  have hopened := he₃.of_openInstance hstart
  change Holds strict opened.1 T₃ cell₃ at hh₃
  refine ⟨?_, ?_, fun id cs hid hstream => ?_⟩
  · rw [hreply]
    split
    · cases OffsetMap.column strict 0 (whole.values.getD []) [] with
      | ok l => exact Or.inl ⟨_, rfl⟩
      | error e => exact Or.inr ⟨_, _, rfl⟩
    · exact Or.inr ⟨_, _, rfl⟩
  · rcases hopened with ⟨-, id, hid, -⟩ | ⟨hname, hrefused⟩ | ⟨habort, hall⟩
    · exact Or.inl ⟨id, hid⟩
    · rw [if_neg hname] at hreply
      exact Or.inr (Or.inl ⟨_, _, hrefused, hreply⟩)
    · exact Or.inr (Or.inr ⟨habort, hh₂.exhausted hall⟩)
  · rcases hopened with ⟨hname, id', hid', hheld⟩ | ⟨-, hrefused⟩ | ⟨habort, -⟩
    · obtain rfl := Answer.opened.inj (Reply.answer.inj (hid'.symm.trans hid))
      rw [if_pos hname] at hreply
      refine ⟨_, _, hh₃.repliesTo_eq hstream hheld, List.length_map _, ?_⟩
      rw [hreply]
      exact OffsetMap.agrees_column id' _
    · cases hid.symm.trans hrefused
    · cases hid.symm.trans habort

/-- A column whose third value is refused, in one command and as a stream with
commands about another instance in between. -/
theorem streaming_agrees_on_refused_row :
    let name := "wasmati.getBufferLocationMap"
    let id := "00000000-0000-4000-8000-000000000001"
    let other := "00000000-0000-4000-8000-000000000002"
    let row (value : Value) : Command := { type := "update", id, value }
    let finish (id : String) : Command := { type := "finalize", id }
    let start : Command := { type := "open", function := name }
    let whole : Command :=
      { type := "aggregate", function := name, values := some [.number "16", .null, .text "x"] }
    let cs := [row (.number "16"), start, row .null, finish other, row (.text "x"), finish id]
    let opened := (newHost true {}).execute start
    let reply := ((newHost true {}).execute whole).2
    opened.2 = .answer (.opened id) ∧ Streams id [.number "16", .null, .text "x"] cs ∧
      reply.problem? =
        some (.typeError, "row 2: parameter \"value\": cannot bind string to INTEGER") ∧
      ∃ updates last, opened.1.repliesTo id cs = updates ++ [last] ∧ updates.length = 3 ∧
        Agrees id reply updates last := by
  intro name id other row finish start whole cs opened reply
  have hopened : opened.2 = .answer (.opened id) := by
    have hvalue : ((newHost true {}).openInstance name).2 = .value id :=
      openInstance_value rfl (by decide +kernel)
    show Reply.ofOutcome .openInstance .opened ((newHost true {}).openInstance name).2 = _
    rw [hvalue]
    rfl
  have hstream : Streams id [.number "16", .null, .text "x"] cs :=
    .update (row (.number "16")) rfl rfl
      (.other start (by decide +kernel)
        (.update (row .null) rfl rfl
          (.other (finish other) (by decide +kernel)
            (.update (row (.text "x")) rfl rfl
              (.finalize (finish id) rfl rfl)))))
  obtain ⟨-, -, hagrees⟩ := streaming_agrees true {} {} (fun _ => "") [] [] whole start
    rfl rfl rfl
  exact ⟨hopened, hstream, by decide +kernel, hagrees id cs hopened hstream⟩

end Host
end OffsetGaps
