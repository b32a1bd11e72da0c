/-
# The command line and the adapter agree

The same offsets can be given to the subcommand `layout`, as words or as the
lines of its input, and to a serving host, as the numbers of one `aggregate`.
The two ways read and write them differently: decimal words become machine
integers and the layout is printed as a document, while number literals stay
literals and the layout is the result of an answer. Still they agree: both
give the same layout, or both fail with the same message.

What a command line aggregates is what a host with the same setting answers
to the integers (`runLayout_eq`), the two kinds of values bind alike
(`OffsetMap.column_congr`), and the documents read back as one object.

Key definitions: `offsetJson`, `aggregateCommand`.
Key theorems: `Host.aggregate_reply`, `runLayout_eq`,
`Command.read_aggregate`, `layout_agrees_with_aggregate`.
-/
import OffsetGaps.Proofs.Documents
import OffsetGaps.Proofs.Listings
import OffsetGaps.Proofs.Serving
import OffsetGaps.Proofs.Streaming

namespace OffsetGaps

/-- An offset as a decimal JSON number, and a missing one as a null. -/
def offsetJson : Option Int64 → Json
  | none => .null
  | some n => .number (Decimal.text n.toInt)

/-! ### Values -/

namespace OffsetMap

theorem bindInteger_offsetValue (offset : Option Int64) :
    param.bindInteger (offsetValue offset) = .ok offset := by
  cases offset <;> rfl

theorem bindInteger_ofJson (offset : Option Int64) :
    param.bindInteger (Value.ofJson (offsetJson offset)) = .ok offset := by
  cases offset with
  | none => rfl
  | some n =>
    have hread : (Decimal.readInt64 (Decimal.text n.toInt).toList).toOption = some n := by
      simp [Decimal.text, Decimal.readInt64_write, Except.toOption]
    simp only [offsetJson, Value.ofJson, Param.bindInteger, hread]
    rfl

/-- Values that bind alike give the same layout, or the same error. -/
theorem column_congr {α : Type} {f g : α → Value}
    (h : ∀ a, param.bindInteger (f a) = param.bindInteger (g a)) (strict : Bool) (items : List α) :
    ∀ (index : ℕ) (taken : List Int64),
      column strict index (items.map f) taken = column strict index (items.map g) taken := by
  induction items with
  | nil => intro index taken; rfl
  | cons a items ih =>
    intro index taken
    have hrow : readRow strict [f a] = readRow strict [g a] := by simp only [readRow, h a]
    simp only [List.map_cons, column, hrow, ih]

end OffsetMap

/-! ### The two ways -/

/-- The reply to an aggregate of the offset map, after any commands. -/
theorem Host.aggregate_reply (strict : Bool) (supply : Supply) (complaint : List Char → String)
    (before : List Command) {c : Command} (htype : c.type = "aggregate")
    (hfunction : c.function = "wasmati.getBufferLocationMap") :
    (((newHost strict supply complaint).afterCommands before).execute c).2 =
      .ofOutcome .aggregate (fun l => .aggregated (.layout l))
        (.ofExcept (OffsetMap.column strict 0 (c.values.getD []) [])) := by
  obtain ⟨T, cell, hh, -⟩ := exists_holds strict supply complaint before
  obtain ⟨T', cell', he, -⟩ := hh.exchange c
  have hreply := he.of_aggregate htype
  have hname : c.function = OffsetMap.descriptor.qualifiedName := hfunction
  rw [if_pos hname] at hreply
  exact hreply

/-- Whatever is aggregated by the offset map, a result is a layout. -/
theorem Host.layout_of_aggregateColumn {strict : Bool} {supply : Supply} {values : List Value}
    {v : Value} (hvalue : ((newHost strict supply).aggregateColumn
      "wasmati.getBufferLocationMap" values).2 = .value v) : ∃ l, v = .layout l := by
  obtain ⟨hend, -⟩ := (holds_newHost strict supply _).aggregateColumn_eq values
  have houtcome := hend.symm.trans hvalue
  cases hresult : OffsetMap.column strict 0 values [] with
  | ok l =>
    rw [hresult] at houtcome
    cases houtcome
    exact ⟨l, rfl⟩
  | error e =>
    rw [hresult] at houtcome
    cases houtcome

/-- What the program's host makes of listed offsets. -/
theorem aggregateOffsets_eq (strict : Bool) (supply : Supply) (offsets : List (Option Int64)) :
    (aggregateOffsets (newHost strict supply) offsets).2 =
      (OffsetMap.column strict 0 (offsets.map offsetValue) []).mapError .host := by
  obtain ⟨hend, -⟩ :=
    (Host.holds_newHost strict supply _).aggregateColumn_eq (offsets.map offsetValue)
  unfold aggregateOffsets
  generalize Host.aggregateColumn (newHost strict supply) _ _ = r at hend ⊢
  obtain ⟨g, outcome⟩ := r
  simp only at hend
  subst hend
  cases OffsetMap.column strict 0 (offsets.map offsetValue) [] <;> rfl

/-- A run of the subcommand `layout` with format `json` prints the layout of
the listed offsets, or prints nothing and fails. -/
theorem runLayout_eq {s : Settings} {threshold : Int64} {words : List String} {input : List Char}
    {offsets : List (Option Int64)} (hlevel : Threshold.read s.logLevel = .ok threshold)
    (hformat : s.format = "json") (hread : Listing.read words input = .ok offsets)
    (supply : Supply) :
    match OffsetMap.column s.rejectNegative 0 (offsets.map offsetValue) [] with
    | .ok l => (runLayout s words input supply).stdout = String.ofList l.jsonText ∧
        (runLayout s words input supply).error = none
    | .error e => (runLayout s words input supply).stdout = "" ∧
        (runLayout s words input supply).error = some (.host e) := by
  have hlayout := aggregateOffsets_eq s.rejectNegative supply offsets
  have hrender (l : Layout) : Layout.render s.format (some l) = .ok (String.ofList l.jsonText) := by
    rw [hformat]; rfl
  simp only [runLayout, hlevel, hread, hlayout]
  cases OffsetMap.column s.rejectNegative 0 (offsets.map offsetValue) [] with
  | ok l => simp [Except.mapError, hrender]
  | error e => simp [Except.mapError]

/-! ### The line of an aggregate -/

/-- An aggregate of the offset map as a JSON object. -/
def aggregateJson (offsets : List (Option Int64)) : Json :=
  .object [("type", .string "aggregate"), ("function", .string "wasmati.getBufferLocationMap"),
    ("values", .array (offsets.map offsetJson))]

def aggregateCommand (offsets : List (Option Int64)) : Command :=
  { type := "aggregate"
    function := "wasmati.getBufferLocationMap"
    values := some (offsets.map fun offset => Value.ofJson (offsetJson offset)) }

theorem readFirst_aggregateJson (offsets : List (Option Int64)) :
    Json.readFirst (Json.text (aggregateJson offsets)) = some (aggregateJson offsets, []) := by
  have hitems : ∀ v ∈ offsets.map offsetJson, v.Sound 0 := by
    simp only [List.forall_mem_map]
    intro offset _
    cases offset with
    | none => exact Json.sound_null
    | some n => exact Json.sound_number n.toInt
  have hsound : (aggregateJson offsets).Sound 2 := by
    apply Json.sound_object
    simp only [List.forall_mem_cons]
    exact ⟨Json.sound_string _, Json.sound_string _, Json.sound_array hitems, fun _ h => by cases h⟩
  exact hsound.readFirst_text (by decide)

theorem Command.read_aggregate (offsets : List (Option Int64)) :
    Command.read (Json.text (aggregateJson offsets)) = some (aggregateCommand offsets) := by
  have htype : Field.ofName? "type" = some .type := by decide +kernel
  have hfunction : Field.ofName? "function" = some .function := by decide +kernel
  have hvalues : Field.ofName? "values" = some .values := by decide +kernel
  rw [Command.read, readFirst_aggregateJson]
  simp [aggregateJson, Command.ofJson, Command.member, htype, hfunction, hvalues, Command.set,
    Command.textField, Command.listField, aggregateCommand]

/-- **The command line and the adapter agree.** List any offsets, as words or
one on each line, to the subcommand `layout` with format `json`, and give a
serving host with the same setting, after any commands, an aggregate of the
same offsets as decimal numbers and nulls. Either both succeed, and what is
printed is the object of the layout in the answer, each entry once, which the
answer writes too; or both fail, with one message, and nothing is printed.

Whatever values are aggregated, a result is a layout. And such an aggregate
stands on a line. -/
theorem layout_agrees_with_aggregate {s : Settings} {threshold : Int64}
    (hlevel : Threshold.read s.logLevel = .ok threshold) (hformat : s.format = "json")
    {offsets : List (Option Int64)} {words : List String} {input : List Char}
    (hlists : Listing.Lists offsets words input) (supply supply' : Supply)
    (complaint : List Char → String) (before : List Command) {c : Command} (htype : c.type = "aggregate")
    (hfunction : c.function = "wasmati.getBufferLocationMap")
    (hvalues : c.values.getD [] = offsets.map fun offset => Value.ofJson (offsetJson offset)) :
    let run := runLayout s words input supply
    let reply := (((newHost s.rejectNegative supply' complaint).afterCommands before).execute c).2
    ((∃ l members text, reply = .answer (.aggregated (.layout l)) ∧
        members.Perm (l.entries.map Layout.jsonMember) ∧ run.error = none ∧
        Json.readFirst run.stdout.toList = some (.object members, ['\n']) ∧
        (Value.layout l).jsonText = .ok text ∧ Json.readFirst text = some (.object members, [])) ∨
      ∃ e code, reply = .answer (.refused "aggregate" code e.message) ∧ run.error = some e ∧
        run.stdout = "") ∧
    (∀ values v, ((newHost s.rejectNegative supply).aggregateColumn
        "wasmati.getBufferLocationMap" values).2 = .value v → ∃ l, v = .layout l) ∧
    Command.read (Json.text (aggregateJson offsets)) = some (aggregateCommand offsets) := by
  intro run reply
  have hread := Listing.read_of_lists hlists
  have hrun := runLayout_eq hlevel hformat hread supply
  have hreply : reply = _ :=
    Host.aggregate_reply s.rejectNegative supply' complaint before htype hfunction
  -- both kinds of values bind to the offsets
  have hcolumn := OffsetMap.column_congr
    (fun offset => (OffsetMap.bindInteger_ofJson offset).trans
      (OffsetMap.bindInteger_offsetValue offset).symm) s.rejectNegative offsets 0 []
  rw [hvalues, hcolumn] at hreply
  refine ⟨?_, fun _ _ => Host.layout_of_aggregateColumn, Command.read_aggregate offsets⟩
  cases hlayout : OffsetMap.column s.rejectNegative 0 (offsets.map offsetValue) [] with
  | ok l =>
    rw [hlayout] at hreply hrun
    obtain ⟨hstdout, herror⟩ := hrun
    have hperm : (l.byBytes.map Layout.jsonMember).Perm (l.entries.map Layout.jsonMember) :=
      (List.mergeSort_perm _ _).map _
    refine Or.inl ⟨l, _, Value.layoutText l, hreply, hperm, herror, ?_, rfl,
      l.readFirst_layoutText⟩
    rw [hstdout, String.toList_ofList]
    exact l.readFirst_jsonText
  | error e =>
    rw [hlayout] at hreply hrun
    obtain ⟨hstdout, herror⟩ := hrun
    exact Or.inr ⟨.host e, .ofError e, hreply, herror, hstdout⟩

/-- A negative offset: a lenient run prints the layout of the answer, and a
strict one fails with the message of the refusal. -/
theorem layout_agrees_with_aggregate_signed :
    let offsets : List (Option Int64) := [some 8, none, some (-5)]
    let lines := "8\nnull\n-5".toList
    let words := ["8", "null", "-5"]
    let lenient : Settings := {}
    let strict : Settings := { rejectNegative := true }
    let reply := ((newHost false {}).execute (aggregateCommand offsets)).2
    let refusal := ((newHost true {}).execute (aggregateCommand offsets)).2
    Listing.Lists offsets [] lines ∧ Listing.Lists offsets words [] ∧
      reply = .answer (.aggregated (.layout ⟨[("@-5", 5), ("@0", 8)]⟩)) ∧
      (∃ members, members.Perm [("@-5", .number "5"), ("@0", .number "8")] ∧
        Json.readFirst (runLayout lenient [] lines {}).stdout.toList =
          some (.object members, ['\n'])) ∧
      refusal.problem? = some (.negativeOffset, "row 2: value = -5: negative offset") ∧
      (runLayout strict words [] {}).error.map RunError.message =
        some "row 2: value = -5: negative offset" ∧
      (runLayout strict words [] {}).stdout = "" := by
  intro offsets lines words lenient strict reply refusal
  have hlines : Listing.Lists offsets [] lines := by
    have htext : List.intercalate ['\n'] (offsets.map Listing.word) = lines := by decide +kernel
    rw [← htext]
    exact .unended
  have hwords : Listing.Lists offsets words [] := by
    have htext : (offsets.map fun offset => String.ofList (Listing.word offset)) = words := by
      decide +kernel
    rw [← htext]
    exact .words (by decide) []
  have hlevel : Threshold.read "warn" = .ok Level.warn.severity := rfl
  obtain ⟨hlenient, -, -⟩ := layout_agrees_with_aggregate (s := lenient) hlevel rfl hlines {} {} (fun _ => "") []
    (c := aggregateCommand offsets) rfl rfl rfl
  obtain ⟨hstrict, -, -⟩ := layout_agrees_with_aggregate (s := strict) hlevel rfl hwords {} {} (fun _ => "") []
    (c := aggregateCommand offsets) rfl rfl rfl
  have hsorted : landmarks [-5, 8] = [-5, 0, 8] := by
    simp [landmarks, List.mergeSort, List.MergeSort.Internal.splitInTwo, mergeEqual]
  have hcolumn : OffsetMap.column false 0
      (offsets.map fun offset => Value.ofJson (offsetJson offset)) [] =
        .ok ⟨[("@-5", 5), ("@0", 8)]⟩ := by
    show OffsetMap.layoutOf [-5, 8] = _
    unfold OffsetMap.layoutOf Layout.ofOffsets
    rw [hsorted]
    rfl
  have hanswered : reply = .answer (.aggregated (.layout ⟨[("@-5", 5), ("@0", 8)]⟩)) := by
    have hreply := Host.aggregate_reply false {} (fun _ => "") [] (c := aggregateCommand offsets) rfl rfl
    have hvalues : (aggregateCommand offsets).values.getD [] =
        offsets.map fun offset => Value.ofJson (offsetJson offset) := rfl
    rw [hvalues, hcolumn] at hreply
    exact hreply
  have hrefused : refusal.problem? = some (.negativeOffset, "row 2: value = -5: negative offset") := by
    decide +kernel
  refine ⟨hlines, hwords, hanswered, ?_, hrefused, ?_⟩
  · rcases hlenient with ⟨l, members, -, hreply, hperm, -, hstdout, -⟩ | ⟨e, code, hreply, -⟩
    · cases hanswered.symm.trans hreply
      exact ⟨members, hperm, hstdout⟩
    · cases hanswered.symm.trans hreply
  · rcases hstrict with ⟨l, members, -, hreply, -⟩ | ⟨e, code, hreply, herror, hstdout⟩
    · have hproblem : refusal.problem? = none := congrArg Reply.problem? hreply
      rw [hrefused] at hproblem
      cases hproblem
    · have hproblem : refusal.problem? = some (code, e.message) := congrArg Reply.problem? hreply
      rw [hrefused] at hproblem
      obtain ⟨-, hmessage⟩ := Prod.mk.inj (Option.some.inj hproblem)
      rw [herror]
      exact ⟨congrArg some hmessage.symm, hstdout⟩

end OffsetGaps
