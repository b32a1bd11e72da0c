/-
# One answer a line

Serving a text answers its commands one by one. The lines that are answered
are those that are not blank, up to the first that asks to stop and before
the first that is too long (`commandLines`). Each gets one line of answer, in
order: a line that is no command is refused and leaves the host as it was, a
command gets what the host answers to it (`Host.Converses`). Each answer is
read back as an object, which has the code of parse errors exactly if its
line is no command (`Answered`). How serving ends depends on the lines alone,
and when it ends in order the log says how many instances are still open, if
there are any.

One line is taken at a time (`Host.serveLine_undecoded`,
`Host.serveLine_command`); that there is an answer to write at all comes from
the rules of the protocol, by which a result is always a layout. Commands log
no warnings, so the one at the end is the only one of serving.

Key definitions: `stops`, `commandLines`, `Host.Converses`, `Answered`,
`Host.warnings`.
Key theorems: `Host.code_execute`, `Host.warnings_execute`,
`Host.Holds.serveLines_eq`, `Host.serve_answers_each_line`.
-/
import OffsetGaps.Proofs.Exchanges

namespace OffsetGaps

/-- Whether a line asks to stop serving. -/
def stops (line : List Char) : Bool := (Command.read line).any fun c => c.type == "shutdown"

/-- The lines that are to be answered: those that are not blank, up to the
first that asks to stop. -/
def commandLines (lines : List (List Char)) : List (List Char) :=
  (upTo stops lines).filter fun line => trim line ≠ []

/-- **A conversation.** `h.Converses lines answers g`: the host `h` is given
the lines one after another, answers each with a line, and is `g`
afterwards. -/
inductive Host.Converses {σ : Type} :
    Host σ → List (List Char) → List (List Char) → Host σ → Prop where
  | nil (h : Host σ) : Converses h [] [] h
  /-- A line that is no command is refused and changes nothing. -/
  | undecoded {h g : Host σ} {line text : List Char} {rest answers : List (List Char)}
    (hread : Command.read line = none)
    (hwritten : (Answer.refused "parse" .parseError (h.complaint line)).Written text) :
    Converses h rest answers g → Converses h (line :: rest) (text :: answers) g
  | command {h g : Host σ} {line text : List Char} {rest answers : List (List Char)} {c : Command}
    {a : Answer} (hread : Command.read line = some c) (hreply : (h.execute c).2 = .answer a)
    (hwritten : a.Written text) :
    Converses (h.execute c).1 rest answers g → Converses h (line :: rest) (text :: answers) g

/-- **The answer to a line**, as it is read off its text. It is an object that
tells a success or an error code. For a line that is no command it says so,
in the decoder's words if there are any; for a command it does not. -/
def Answered (complaint : List Char → String) (line text : List Char) : Prop :=
  ∃ v, Json.readFirst text = some (v, []) ∧
    v.member? "success" = some (.bool (v.member? "errorCode").isNone) ∧
    (Command.read line = none → v = .object ([("type", .string "error"), ("success", .bool false),
      ("commandType", .string "parse"), ("errorCode", .string "PARSE_ERROR")] ++
        Answer.textMember "message" (complaint line))) ∧
    (v.member? "errorCode" = some (.string "PARSE_ERROR") → Command.read line = none)

/-! ### Parse errors -/

theorem ErrorCode.ofError_ne_parseError (e : HostError) : ErrorCode.ofError e ≠ .parseError := by
  fun_induction ErrorCode.ofError e with
  | case1 _ _ ih => exact ih
  | _ => decide

theorem Reply.code_ofOutcome {α : Type} {verb : Verb} {answer : α → Answer}
    (hanswer : ∀ v, (answer v).code? = none) {outcome : Outcome α} {a : Answer}
    (h : Reply.ofOutcome verb answer outcome = .answer a) : a.code? ≠ some .parseError := by
  cases outcome with
  | value v =>
    rw [← Reply.answer.inj h, hanswer]
    exact (Option.some_ne_none _).symm
  | failure e =>
    rw [← Reply.answer.inj h]
    exact fun hcode => ErrorCode.ofError_ne_parseError e (Option.some.inj hcode)
  | abort text => cases h

namespace Host

variable {σ : Type} {h : Host σ}

/-- A command is not refused with a parse error. -/
theorem code_execute {c : Command} {a : Answer} (hreply : (h.execute c).2 = .answer a) :
    a.code? ≠ some .parseError := by
  unfold execute at hreply
  split at hreply
  · rename_i verb _
    cases verb with
    | init | functions | shutdown =>
      rw [← Reply.answer.inj hreply]
      exact (Option.some_ne_none _).symm
    | openInstance | update | finalize | aggregate => exact Reply.code_ofOutcome (fun _ => rfl) hreply
    | discard =>
      simp only [carryOut] at hreply
      split at hreply
      · rw [← Reply.answer.inj hreply]
        exact (Option.some_ne_none _).symm
      · rw [← Reply.answer.inj hreply]
        exact fun hcode => ErrorCode.ofError_ne_parseError _ (Option.some.inj hcode)
  · rw [← Reply.answer.inj hreply]
    exact fun hcode => by cases hcode

theorem complaint_execute (c : Command) : (h.execute c).1.complaint = h.complaint := by
  unfold execute
  split
  · rename_i verb _
    cases verb with
    | init | functions | discard | shutdown | aggregate => rfl
    | openInstance =>
      show (h.openInstance c.function).1.complaint = _
      unfold openInstance
      split
      · rfl
      · split <;> rfl
    | update =>
      show (h.update c.id [c.value]).1.complaint = _
      unfold update
      split
      · rfl
      · rfl
    | finalize =>
      show (h.finalize c.id).1.complaint = _
      unfold finalize
      split
      · rfl
      · rfl
  · rfl

theorem complaint_afterCommands (cs : List Command) :
    (h.afterCommands cs).complaint = h.complaint := by
  induction cs generalizing h with
  | nil => rfl
  | cons c cs ih => exact ih.trans (complaint_execute c)

end Host

/-! ### Warnings -/

namespace Ledger

variable {σ : Type}

/-- The warnings in the log. -/
def warnings (l : Ledger σ) : List LogRecord := l.log.toList.filter fun r => r.level = .warn

theorem warnings_logCall (slot : ℕ) (function : String) (call : Call) (error : Option HostError)
    (l : Ledger σ) : (l.logCall slot function call error).warnings = l.warnings := by
  cases call <;> cases error <;> simp [warnings, logCall, countRow, callRecord]

theorem warnings_observe (layer : Layer) (call : Call) (outcome : Outcome Value) (l : Ledger σ) :
    (l.observe layer call outcome).warnings = l.warnings := by
  cases layer with
  | logging slot function =>
    cases outcome with
    | abort text => rfl
    | value v => exact warnings_logCall ..
    | failure e => exact warnings_logCall ..
  | recording slot => cases outcome <;> rfl
  | tagging label => cases outcome <;> rfl

theorem warnings_announce (layer : Layer) (call : Call) (l : Ledger σ) :
    (l.announce layer call).warnings = l.warnings := by
  cases layer <;> rfl

theorem warnings_perform (kernel : Kernel σ) (call : Call) : ∀ (layers : List Layer) (l : Ledger σ),
    (perform kernel layers call l).1.warnings = l.warnings
  | [], _ => rfl
  | layer :: inner, l => by
    rw [perform, warnings_observe, warnings_perform kernel call inner, warnings_announce]

theorem warnings_attachAll (function : String) : ∀ (observers : List Observer) (l : Ledger σ),
    (l.attachAll function observers).2.warnings = l.warnings
  | [], _ => rfl
  | o :: rest, l => by
    rw [← warnings_attachAll function rest l, attachAll]
    cases o <;> rfl

end Ledger

theorem Catalogue.warnings_instantiate {σ : Type} {c : Catalogue σ} {name : String} {l l' : Ledger σ}
    {inst : Instance σ} (h : c.instantiate name l = .ok (inst, l')) : l'.warnings = l.warnings := by
  unfold instantiate at h
  split at h
  · cases h
  · obtain ⟨-, rfl⟩ := Prod.mk.inj (Except.ok.inj h)
    exact Ledger.warnings_attachAll _ _ _

namespace Instance

variable {σ : Type}

theorem warnings_perform (inst : Instance σ) (call : Call) (l : Ledger σ) :
    (inst.perform call l).1.warnings = l.warnings :=
  Ledger.warnings_perform inst.kernel call inst.layers l

theorem warnings_drive (inst : Instance σ) :
    ∀ (rows : List (List Value)) (index : ℕ) (l : Ledger σ),
      (inst.drive index rows l).1.warnings = l.warnings
  | [], _, l => inst.warnings_perform .result l
  | row :: rest, index, l => by
    have hcall := inst.warnings_perform (.update row) l
    rw [drive]
    split
    · rfl
    · split
      all_goals
        rename_i heq
        rw [heq] at hcall
      · rw [warnings_drive inst rest, hcall]
      · exact hcall
      · exact hcall

end Instance

namespace Host

variable {σ : Type} {h g : Host σ}

/-- The warnings that a host has logged. -/
def warnings (h : Host σ) : List LogRecord := h.ledger.warnings

theorem warnings_openInstance (name : String) : (h.openInstance name).1.warnings = h.warnings := by
  unfold openInstance
  split
  · rfl
  · rename_i hinst
    have hlog := Catalogue.warnings_instantiate hinst
    split <;> exact hlog

theorem warnings_update (id : String) (args : List Value) :
    (h.update id args).1.warnings = h.warnings := by
  unfold update
  split
  · rfl
  · exact Instance.warnings_perform _ _ _

theorem warnings_finalize (id : String) : (h.finalize id).1.warnings = h.warnings := by
  unfold finalize
  split
  · rfl
  · exact Instance.warnings_perform _ _ _

theorem warnings_aggregateColumn (name : String) (values : List Value) :
    (h.aggregateColumn name values).1.warnings = h.warnings := by
  show (h.catalogue.aggregate name (values.map fun v => [v]) h.ledger).1.warnings = _
  unfold Catalogue.aggregate
  split
  · rfl
  · rename_i hinst
    rw [Instance.warnings_drive, Catalogue.warnings_instantiate hinst]
    rfl

/-- Commands log no warnings. -/
theorem warnings_execute (c : Command) : (h.execute c).1.warnings = h.warnings := by
  unfold execute
  split
  · rename_i verb _
    cases verb with
    | init | functions | discard | shutdown => rfl
    | openInstance => exact warnings_openInstance c.function
    | update => exact warnings_update c.id [c.value]
    | finalize => exact warnings_finalize c.id
    | aggregate => exact warnings_aggregateColumn c.function (c.values.getD [])
  · rfl

namespace Converses

variable {lines answers : List (List Char)}

theorem warnings (hc : h.Converses lines answers g) : g.warnings = h.warnings := by
  induction hc with
  | nil => rfl
  | undecoded _ _ _ ih => exact ih
  | command _ _ _ _ ih => rw [ih, warnings_execute]

theorem feed_not_mem (hc : h.Converses lines answers g) : ∀ answer ∈ answers, '\n' ∉ answer := by
  induction hc with
  | nil => exact fun _ h => by cases h
  | undecoded _ hwritten _ ih => exact List.forall_mem_cons.mpr ⟨hwritten.line, ih⟩
  | command _ _ hwritten _ ih => exact List.forall_mem_cons.mpr ⟨hwritten.line, ih⟩

/-- The answers tell parse errors from all others. -/
theorem answered (hc : h.Converses lines answers g) :
    List.Forall₂ (Answered h.complaint) lines answers := by
  have hsuccess : ∀ a : Answer,
      a.json.member? "success" = some (.bool (a.json.member? "errorCode").isNone) := by
    intro a
    rw [Answer.member_success, Answer.member_errorCode, Option.isNone_map]
  induction hc with
  | nil => exact .nil
  | undecoded hread hwritten _ ih =>
    exact .cons ⟨_, hwritten.readFirst_eq, hsuccess _, fun _ => rfl, fun _ => hread⟩ ih
  | @command h g line text rest answers c a hread hreply hwritten _ ih =>
    rw [complaint_execute] at ih
    refine .cons ⟨a.json, hwritten.readFirst_eq, hsuccess a, fun hnone => ?_, fun hcode => ?_⟩ ih
    · rw [hread] at hnone
      cases hnone
    · exact absurd (Answer.member_errorCode_iff.mp hcode) (code_execute hreply)

end Converses

/-! ### One line -/

variable {line : List Char}

theorem serveLine_blank (hblank : line.all isBlank = true) : h.serveLine line = .skipped := by
  rw [serveLine, if_pos hblank]

/-- A line that is no command is refused. -/
theorem serveLine_undecoded (hblank : line.all isBlank = false) (hread : Command.read line = none) :
    ∃ text, (Answer.refused "parse" .parseError (h.complaint line)).Written text ∧
      h.serveLine line = .answered h text false := by
  obtain ⟨text, hwritten⟩ :=
    @Answer.exists_written (.refused "parse" .parseError (h.complaint line)) fun _ hv => by cases hv
  refine ⟨text, hwritten, ?_⟩
  rw [serveLine, hblank, answerLine, decode, hread]
  simp only [hwritten.text_eq]
  rfl

theorem not_blank_of_read {c : Command} (hread : Command.read line = some c) :
    line.all isBlank = false := by
  refine Bool.eq_false_iff.mpr fun hall => ?_
  rw [Command.read_of_blank hall] at hread
  cases hread

/-- A command is answered as the host carries it out. -/
theorem serveLine_command {c : Command} {a : Answer} {text : List Char}
    (hread : Command.read line = some c) (hreply : (h.execute c).2 = .answer a)
    (hwritten : a.Written text) :
    h.serveLine line = .answered (h.execute c).1 text (c.type == "shutdown") := by
  rw [serveLine, not_blank_of_read hread, answerLine, decode, hread]
  simp only [hreply, hwritten.text_eq]
  rfl

theorem serveLine_aborted {c : Command} {text : String} (hread : Command.read line = some c)
    (hreply : (h.execute c).2 = .abort text) :
    h.serveLine line = .broken (h.execute c).1 (.aborted text) := by
  rw [serveLine, not_blank_of_read hread, answerLine, decode, hread]
  simp only [hreply]
  rfl

end Host

/-! ### Line after line -/

theorem commandLines_cons (line : List Char) (rest : List (List Char)) :
    commandLines (line :: rest) =
      (if line.all isBlank then [] else [line]) ++ (if stops line then [] else commandLines rest) := by
  rw [commandLines, upTo_cons]
  by_cases hblank : trim line = []
  · rw [if_pos (trim_eq_nil_iff.mp hblank)]
    cases stops line <;> simp [hblank, commandLines]
  · rw [if_neg fun hall => hblank (trim_eq_nil_iff.mpr hall)]
    cases stops line <;> simp [hblank, commandLines]

namespace Host

variable {strict : Bool} {h g : OffsetHost}

theorem serveLines_answered {line text : List Char} {last : Bool}
    (hline : h.serveLine line = .answered g text last) (overlong : Bool) (rest : List (List Char))
    (out : Array (List Char)) :
    serveLines overlong (line :: rest) h out =
      if last then serveLines false [] g (out.push text)
      else serveLines overlong rest g (out.push text) := by
  rw [serveLines.eq_2, hline]
  rfl

/-- **Serving line after line.** Unless it runs out of identifiers, serving
comes to a conversation about the lines that are to be answered, and ends as
the end of the input says if none of them asks to stop. -/
theorem Holds.serveLines_eq (overlong : Bool) : ∀ (lines : List (List Char)) {h : OffsetHost}
    {T : Holdings} {cell : String → ℕ} (out : Array (List Char)), Holds strict h T cell →
      (serveLines overlong lines h out).ending = .aborted "no free identifier" ∧
          (serveLines overlong lines h out).host.Exhausted ∨
        ∃ answers g, h.Converses (commandLines lines) answers g ∧
          serveLines overlong lines h out =
            serveLines (overlong && !lines.any stops) [] g (out ++ answers.toArray)
  | [], h, _, _, out, _ => Or.inr ⟨[], h, .nil h, by simp⟩
  | line :: rest, h, T, cell, out, hh => by
    -- the host changes from line to line; that it holds some table is what the rules keep
    have hpush : ∀ (text : List Char) (answers : List (List Char)),
        out.push text ++ answers.toArray = out ++ (text :: answers).toArray := by simp
    rw [commandLines_cons, List.any_cons]
    cases hread : Command.read line with
    | none =>
      have hstops : stops line = false := by rw [stops, hread]; rfl
      rw [hstops, Bool.false_or]
      cases hblank : line.all isBlank with
      | true =>
        rw [serveLines, serveLine_blank hblank]
        exact hh.serveLines_eq overlong rest out
      | false =>
        obtain ⟨text, hwritten, hline⟩ := serveLine_undecoded (h := h) hblank hread
        rw [serveLines_answered hline, if_neg Bool.false_ne_true]
        rcases hh.serveLines_eq overlong rest (out.push text) with hexhausted | ⟨answers, g, hc, heq⟩
        · exact Or.inl hexhausted
        · exact Or.inr ⟨text :: answers, g, .undecoded hread hwritten hc, by rw [heq, hpush]⟩
    | some c =>
      have hstops : stops line = (c.type == "shutdown") := by rw [stops, hread]; rfl
      obtain ⟨T', cell', he, hh'⟩ := hh.exchange c
      rcases he.answer_or_exhausted with ⟨a, hreply⟩ | ⟨hreply, -, rfl, hall⟩
      · obtain ⟨text, hwritten⟩ := Answer.exists_written (he.layout_of_result hreply)
        have hline := serveLine_command hread hreply hwritten
        rw [serveLines_answered hline, ← hstops, not_blank_of_read hread]
        cases stops line with
        | true =>
          refine Or.inr ⟨[text], _, .command hread hreply hwritten (.nil _), ?_⟩
          simp
        | false =>
          rw [if_neg Bool.false_ne_true, Bool.false_or]
          rcases hh'.serveLines_eq overlong rest (out.push text) with hexhausted | ⟨answers, g, hc, heq⟩
          · exact Or.inl hexhausted
          · exact Or.inr ⟨text :: answers, g, .command hread hreply hwritten hc, by rw [heq, hpush]⟩
      · rw [serveLines, serveLine_aborted hread hreply]
        exact Or.inl ⟨rfl, hh'.exhausted hall⟩

theorem reportOpen_eq {σ : Type} (g : Host σ) :
    g.reportOpen = { g with ledger := { g.ledger with log := g.ledger.log ++
      if 0 < g.openCount then #[openRecord g.openCount] else #[] } } := by
  unfold reportOpen
  split
  · rename_i hnone
    rw [if_neg (by omega), Array.append_empty]
  · rename_i hsome
    rw [if_pos (by omega), Array.append_singleton]

/-- **One answer a line.** A text is served after any commands. Its lines hold
no line feed and make it up. Unless serving runs out of identifiers (it would
search for ever), the output is one line for each line of the text that is
not blank, in order, as far as the first line that asks to stop or to the
last before one that takes 10 MiB. Each reads back as an object. A line that
is no command, and no other, is answered with a parse error, in the words of
the decoder, and changes nothing. Serving ends with an error exactly if a
line is too long and none before it asks to stop; otherwise the instances
that are still open are counted in a warning, if there are any. -/
theorem serve_answers_each_line (strict : Bool) (supply : Supply) (complaint : List Char → String)
    (cs : List Command) (text : List Char) :
    let h := (newHost strict supply complaint).afterCommands cs
    let s := h.serve text
    let lines := rawLines text
    let size (line : List Char) : ℕ := (String.ofList line).utf8ByteSize
    let limit := 10 * 1024 * 1024
    let heard := (lines.takeWhile fun line => size line < limit).map dropReturn
    lines.flatMap (· ++ ['\n']) = ended text ∧ (∀ line ∈ lines, '\n' ∉ line) ∧
    (s.ending = .aborted "no free identifier" ∧ s.host.Exhausted ∨
      ∃ g, h.Converses (commandLines heard) s.answers.toList g ∧
        List.Forall₂ (Answered complaint) (commandLines heard) s.answers.toList ∧
        s.text = String.ofList (s.answers.toList.flatMap (· ++ ['\n'])) ∧
        (∀ answer ∈ s.answers, '\n' ∉ answer) ∧
        (s.ending = .overlong ↔
          (∃ line ∈ lines, limit ≤ size line) ∧ ∀ line ∈ heard, stops line = false) ∧
        (s.ending ≠ .overlong → s.ending = .finished) ∧
        s.host = { g with ledger := { g.ledger with log := g.ledger.log ++
          if s.ending = .finished ∧ 0 < g.openCount then
            #[{ level := .warn, message := "adapter exiting with open aggregations"
                attributes := [("open", .count g.openCount)] }]
          else #[] } } ∧
        g.warnings = h.warnings) := by
  intro h s lines size limit heard
  obtain ⟨T, cell, hh, -⟩ := exists_holds strict supply complaint cs
  refine ⟨flatMap_rawLines text, feed_not_mem_rawLines text, ?_⟩
  let overlong : Bool := !lines.all fun line => size line < limit
  have hserve : s = serveLines overlong heard h #[] := by
    have hsize : byteLength = size := funext byteLength_eq
    show serveLines (Lines.split lineLimit text).overlong (Lines.split lineLimit text).accepted h #[] = _
    rw [Lines.split, hsize]
    rfl
  have hoverlong : (overlong && !heard.any stops) = true ↔
      (∃ line ∈ lines, limit ≤ size line) ∧ ∀ line ∈ heard, stops line = false := by
    simp [overlong]
  rcases hh.serveLines_eq overlong heard #[] with hexhausted | ⟨answers, g, hc, heq⟩
  · refine Or.inl ?_
    rw [hserve]
    exact hexhausted
  · refine Or.inr ⟨g, ?_⟩
    have hfeeds : ∀ answer ∈ answers.toArray, '\n' ∉ answer := fun answer hanswer =>
      hc.feed_not_mem answer (List.mem_toArray.mp hanswer)
    have hanswered : List.Forall₂ (Answered complaint) (commandLines heard) answers := by
      have hwords : h.complaint = complaint := complaint_afterCommands cs
      exact hwords ▸ hc.answered
    rw [← hserve, Array.empty_append] at heq
    rw [← hoverlong]
    cases hend : (overlong && !heard.any stops) with
    | true =>
      rw [hend] at heq
      have hs : s = { host := g, answers := answers.toArray, ending := .overlong } := heq
      rw [hs]
      refine ⟨hc, hanswered, rfl, hfeeds, by simp, by simp, ?_, hc.warnings⟩
      rw [if_neg (by simp), Array.append_empty]
    | false =>
      rw [hend] at heq
      have hs : s = { host := g.reportOpen, answers := answers.toArray, ending := .finished } := heq
      rw [hs]
      refine ⟨hc, hanswered, rfl, hfeeds, by simp, by simp, ?_, hc.warnings⟩
      simp only [true_and]
      exact reportOpen_eq g

/-- A shutdown that cannot be decoded is refused and passed over; the next one
ends serving, while one instance is open. -/
theorem serve_answers_each_line_failed_shutdown :
    let start := "\x7b\"type\":\"open\",\"function\":\"wasmati.getBufferLocationMap\"\x7d".toList
    let failed := "\x7b\"type\":\"shutdown\",\"id\":1\x7d".toList
    let stop := "\x7b\"type\":\"shutdown\"\x7d".toList
    let words : List Char → String := fun _ => "<no string>\n"
    let h := newHost true {} words
    let s := h.serve (start ++ "\r\n \n".toList ++ failed ++ '\n' :: stop ++ "\nx".toList)
    s.ending = .finished ∧ s.host.warnings = [openRecord 1] ∧ Command.read failed = none ∧
      ∃ g, h.Converses [start, failed, stop] s.answers.toList g ∧ g.openCount = 1 ∧
        List.Forall₂ (Answered words) [start, failed, stop] s.answers.toList := by
  intro start failed stop words h s
  have hending : s.ending = .finished := by decide +kernel
  have hwarnings : s.host.warnings = [openRecord 1] := by decide +kernel
  have hfailed : (Command.read failed).isNone = true := by decide +kernel
  have hserve := serve_answers_each_line true {} words []
    (start ++ "\r\n \n".toList ++ failed ++ '\n' :: stop ++ "\nx".toList)
  simp only [afterCommands, List.foldl_nil] at hserve
  obtain ⟨-, -, habort | ⟨g, hc, hanswered, -, -, -, -, hhost, -⟩⟩ := hserve
  · cases hending.symm.trans habort.1
  · refine ⟨hending, hwarnings, Option.isNone_iff_eq_none.mp hfailed, g, ?_, ?_, ?_⟩
    · convert hc using 1
      decide +kernel
    · have hhandles := congrArg Host.handles hhost
      simp only at hhandles
      rw [openCount, ← hhandles]
      decide +kernel
    · convert hanswered using 1
      decide +kernel

end Host
end OffsetGaps
