/-
# Serving composes

A text that is made of whole lines can be served in two parts: if no line of
the first part asks to stop or is too long, serving the two parts one after
the other on the same host comes to the same as serving them at once. The
answers are the same, serving ends in the same way, and the host is the same
but for one record: the one about open instances, with which serving the
first part ends. Nothing depends on what is already in the log, so a record
more makes no difference to what is served after it (`Host.preceded`). Where
an answer of the first part cannot be written, or a call is aborted, serving
ends there either way.

Blank lines are passed over, so they may be put between lines at will
(`Padded`).

Serving is followed line by line on the lines as they stand in the text
(`Host.serveRaw`).

Key definitions: `Host.preceded`, `Host.serveRaw`, `Padded`.
Key theorems: `rawLines_append_of_ended`, `Host.execute_preceded`,
`Host.serveRaw_after`, `Host.serveRaw_append`, `Padded.serveRaw_eq`,
`Host.serve_composes`.
-/
import OffsetGaps.Proofs.Listings
import OffsetGaps.Proofs.Serving

namespace OffsetGaps

variable {σ : Type}

/-! ### Whole lines -/

theorem consLine_append {lines : List (List Char)} (hne : lines ≠ []) (c : Char)
    (more : List (List Char)) : consLine c (lines ++ more) = consLine c lines ++ more := by
  cases lines with
  | nil => exact absurd rfl hne
  | cons line lines => rfl

/-- Behind a text whose last line is ended, a new line starts. -/
theorem rawLines_append_of_ended {text : List Char} (hended : text = [] ∨ text.getLast? = some '\n')
    (more : List Char) : rawLines (text ++ more) = rawLines text ++ rawLines more := by
  induction text with
  | nil => rfl
  | cons c rest ih =>
    rw [List.cons_append, rawLines_cons, rawLines_cons]
    by_cases hc : c = '\n'
    · have hrest : rest = [] ∨ rest.getLast? = some '\n' := by
        cases rest with
        | nil => exact Or.inl rfl
        | cons d rest => simpa using hended
      rw [if_pos hc, if_pos hc, ih hrest]
      rfl
    · have hne : rest ≠ [] := by
        rintro rfl
        simp [hc] at hended
      have hrest : rest.getLast? = some '\n' := by
        cases rest with
        | nil => exact absurd rfl hne
        | cons d rest => simpa using hended
      have hlines : rawLines rest ≠ [] := fun hnil => hne (rawLines_eq_nil hnil)
      rw [if_neg hc, if_neg hc, ih (Or.inr hrest), consLine_append hlines]

/-- **Blank lines put between lines.** `Padded text padded`: the second text is
the first with blank lines added before and behind its lines, none of them too
long. At the end a blank line may lack its line feed, and so may the last line
of the first text, which is then ended. -/
inductive Padded : List Char → List Char → Prop where
  | same (text : List Char) : Padded text text
  | line {line text padded : List Char} (hfeed : '\n' ∉ line) :
    Padded text padded → Padded (line ++ '\n' :: text) (line ++ '\n' :: padded)
  | blank {blanks text padded : List Char} (hfeed : '\n' ∉ blanks) (hblank : trim blanks = [])
    (hfits : (String.ofList blanks).utf8ByteSize < 10 * 1024 * 1024) :
    Padded text padded → Padded text (blanks ++ '\n' :: padded)
  | last {blanks : List Char} (hfeed : '\n' ∉ blanks) (hblank : trim blanks = [])
    (hfits : (String.ofList blanks).utf8ByteSize < 10 * 1024 * 1024) : Padded [] blanks
  | ended {line padded : List Char} (hfeed : '\n' ∉ line) (hne : line ≠ []) :
    Padded [] padded → Padded line (line ++ '\n' :: padded)

/-! ### The log is only written -/

namespace Ledger

/-- The ledger with records before those in its log. -/
def preceded (records : Array LogRecord) (l : Ledger σ) : Ledger σ :=
  { l with log := records ++ l.log }

variable (records : Array LogRecord)

theorem logCall_preceded (slot : ℕ) (function : String) (call : Call) (error : Option HostError)
    (l : Ledger σ) :
    (l.preceded records).logCall slot function call error =
      (l.logCall slot function call error).preceded records := by
  cases call <;> simp [logCall, countRow, preceded]

theorem observe_preceded (layer : Layer) (call : Call) (outcome : Outcome Value) (l : Ledger σ) :
    (l.preceded records).observe layer call outcome =
      (l.observe layer call outcome).preceded records := by
  cases layer with
  | logging slot function =>
    cases outcome with
    | abort text => rfl
    | value v => exact logCall_preceded ..
    | failure e => exact logCall_preceded ..
  | recording slot => cases outcome <;> rfl
  | tagging label => cases outcome <;> rfl

theorem announce_preceded (layer : Layer) (call : Call) (l : Ledger σ) :
    (l.preceded records).announce layer call = (l.announce layer call).preceded records := by
  cases layer <;> rfl

theorem perform_preceded (kernel : Kernel σ) (call : Call) :
    ∀ (layers : List Layer) (l : Ledger σ),
      perform kernel layers call (l.preceded records) =
        (perform kernel layers call l).map (preceded records) id
  | [], _ => rfl
  | layer :: inner, l => by
    simp only [perform, announce_preceded, perform_preceded kernel call inner, Prod.map,
      observe_preceded, id]
    rfl

theorem attach_preceded (function : String) (o : Observer) (l : Ledger σ) :
    (l.preceded records).attach function o =
      (l.attach function o).map id (preceded records) := by
  cases o <;> rfl

theorem attachAll_preceded (function : String) : ∀ (observers : List Observer) (l : Ledger σ),
    (l.preceded records).attachAll function observers =
      (l.attachAll function observers).map id (preceded records)
  | [], _ => rfl
  | o :: rest, l => by
    simp only [attachAll, attachAll_preceded function rest, Prod.map, attach_preceded, id]

end Ledger

variable (records : Array LogRecord)

theorem Instance.perform_preceded (inst : Instance σ) (call : Call) (l : Ledger σ) :
    inst.perform call (l.preceded records) =
      (inst.perform call l).map (Ledger.preceded records) id :=
  Ledger.perform_preceded records inst.kernel call inst.layers l

theorem Instance.drive_preceded (inst : Instance σ) :
    ∀ (rows : List (List Value)) (index : ℕ) (l : Ledger σ),
      inst.drive index rows (l.preceded records) =
        (inst.drive index rows l).map (Ledger.preceded records) id
  | [], _, l => inst.perform_preceded records .result l
  | row :: rest, index, l => by
    have hcancelled : (l.preceded records).env.cancelled = l.env.cancelled := rfl
    unfold drive
    rw [hcancelled, inst.perform_preceded]
    cases l.env.cancelled with
    | true => rfl
    | false =>
      rcases inst.perform (.update row) l with ⟨l', _ | e | text⟩
      · exact drive_preceded inst rest (index + 1) l'
      · rfl
      · rfl

namespace Catalogue

theorem instantiate_preceded (c : Catalogue σ) (name : String) (l : Ledger σ) :
    c.instantiate name (l.preceded records) =
      (c.instantiate name l).map (Prod.map id (Ledger.preceded records)) := by
  unfold instantiate
  cases c.find? name with
  | none => rfl
  | some f =>
    have hattach := Ledger.attachAll_preceded records name c.observers
      { l with env := { l.env with memory := (f.create l.env.memory).2 } }
    simp only [Ledger.preceded, Prod.map] at hattach
    simp only [Ledger.preceded, hattach]
    rfl

theorem aggregate_preceded (c : Catalogue σ) (name : String) (rows : List (List Value))
    (l : Ledger σ) :
    c.aggregate name rows (l.preceded records) =
      (c.aggregate name rows l).map (Ledger.preceded records) id := by
  unfold aggregate
  rw [instantiate_preceded]
  rcases c.instantiate name l with e | ⟨inst, l'⟩
  · rfl
  · exact inst.drive_preceded records rows 0 l'

end Catalogue

namespace Host

/-- The host with records before those in its log. -/
def preceded (records : Array LogRecord) (h : Host σ) : Host σ :=
  { h with ledger := h.ledger.preceded records }

theorem openInstance_preceded (h : Host σ) (name : String) :
    (h.preceded records).openInstance name = (h.openInstance name).map (preceded records) id := by
  have hmade := h.catalogue.instantiate_preceded records name h.ledger
  unfold openInstance
  simp only [preceded, hmade]
  rcases h.catalogue.instantiate name h.ledger with e | ⟨inst, l⟩
  · rfl
  · simp only [Except.map, Prod.map, id]
    cases h.supply.draw? (h.handles.map Prod.fst) <;> rfl

theorem perform_preceded (h : Host σ) (inst : Instance σ) (call : Call) :
    (h.preceded records).perform inst call = (h.perform inst call).map (preceded records) id := by
  have hcall := inst.perform_preceded records call h.ledger
  unfold perform
  simp only [preceded, hcall]
  rfl

theorem update_preceded (h : Host σ) (i : String) (args : List Value) :
    (h.preceded records).update i args = (h.update i args).map (preceded records) id := by
  have hhandle : (h.preceded records).handle? i = h.handle? i := rfl
  unfold update
  rw [hhandle]
  cases h.handle? i with
  | none => rfl
  | some handle =>
    simp only [perform_preceded]
    rfl

theorem finalize_preceded (h : Host σ) (i : String) :
    (h.preceded records).finalize i = (h.finalize i).map (preceded records) id := by
  have hhandle : (h.preceded records).handle? i = h.handle? i := rfl
  unfold finalize
  rw [hhandle]
  cases h.handle? i with
  | none => rfl
  | some handle => exact (h.release i).perform_preceded records handle.inst .result

theorem aggregateColumn_preceded (h : Host σ) (name : String) (values : List Value) :
    (h.preceded records).aggregateColumn name values =
      (h.aggregateColumn name values).map (preceded records) id := by
  have hdriven := h.catalogue.aggregate_preceded records name (values.map fun v => [v]) h.ledger
  unfold aggregateColumn Catalogue.aggregateColumn
  simp only [preceded, hdriven]
  rfl

/-- **Nothing that a command does depends on the log**, to which it only
adds. -/
theorem execute_preceded (h : Host σ) (c : Command) :
    (h.preceded records).execute c = (h.execute c).map (preceded records) id := by
  unfold execute
  cases Verb.ofName? c.type with
  | none => rfl
  | some verb =>
    cases verb with
    | init | functions | discard | shutdown => rfl
    | openInstance => simp only [carryOut, openInstance_preceded]; rfl
    | update => simp only [carryOut, update_preceded]; rfl
    | finalize => simp only [carryOut, finalize_preceded]; rfl
    | aggregate => simp only [carryOut, aggregateColumn_preceded]; rfl

/-- A step of serving, with records before those in the log. -/
def LineStep.preceded (records : Array LogRecord) : LineStep σ → LineStep σ
  | .skipped => .skipped
  | .answered h text last => .answered (h.preceded records) text last
  | .broken h ending => .broken (h.preceded records) ending

theorem serveLine_preceded (h : Host σ) (line : List Char) :
    (h.preceded records).serveLine line = (h.serveLine line).preceded records := by
  have hwords : (h.preceded records).complaint = h.complaint := rfl
  unfold serveLine answerLine decode
  split
  · rfl
  · cases Command.read line with
    | none =>
      simp only [hwords]
      split <;> rfl
    | some c =>
      simp only [execute_preceded, Prod.map, id]
      rcases h.execute c with ⟨g, a | text⟩
      · simp only
        cases a.text <;> rfl
      · rfl

theorem reportOpen_preceded (h : Host σ) :
    (h.preceded records).reportOpen = h.reportOpen.preceded records := by
  have hcount : (h.preceded records).openCount = h.openCount := rfl
  rw [reportOpen_eq, reportOpen_eq, hcount]
  simp [preceded, Ledger.preceded]

/-! ### Lines as they stand -/

/-- Serves lines as they stand in a text, up to the first that is too
long. -/
def serveRaw (lines : List (List Char)) (h : Host σ) (out : Array (List Char)) : Served σ :=
  let fits (line : List Char) : Bool := byteLength line < lineLimit
  serveLines (!lines.all fits) ((lines.takeWhile fits).map dropReturn) h out

variable {line : List Char} {rest : List (List Char)} {h g : Host σ} {out : Array (List Char)}

theorem serve_eq (h : Host σ) (text : List Char) :
    h.serve text = serveRaw (rawLines text) h #[] := rfl

theorem serveRaw_nil (h : Host σ) (out : Array (List Char)) :
    serveRaw [] h out = ⟨h.reportOpen, out, .finished⟩ := rfl

theorem serveRaw_overlong (hline : ¬ byteLength line < lineLimit) :
    serveRaw (line :: rest) h out = ⟨h, out, .overlong⟩ := by
  simp [serveRaw, hline, serveLines]

/-- A line that is not too long is served, and then the lines behind it. -/
theorem serveRaw_cons (hline : byteLength line < lineLimit) :
    serveRaw (line :: rest) h out =
      match h.serveLine (dropReturn line) with
      | .skipped => serveRaw rest h out
      | .broken g ending => ⟨g, out, ending⟩
      | .answered g text last =>
        if last then ⟨g.reportOpen, out.push text, .finished⟩
        else serveRaw rest g (out.push text) := by
  unfold serveRaw
  cases hstep : h.serveLine (dropReturn line) <;> simp [hline, serveLines, hstep]

/-- What comes of serving, after records in the log and after answers. -/
def Served.after (records : Array LogRecord) (answers : Array (List Char)) (s : Served σ) :
    Served σ :=
  ⟨s.host.preceded records, answers ++ s.answers, s.ending⟩

/-- **What was logged and answered before makes no difference** to what is
served, and stands before it. -/
theorem serveRaw_after (answers : Array (List Char)) :
    ∀ (lines : List (List Char)) (h : Host σ) (out : Array (List Char)),
      serveRaw lines (h.preceded records) (answers ++ out) =
        (serveRaw lines h out).after records answers
  | [], h, out => by
    rw [serveRaw_nil, reportOpen_preceded]
    rfl
  | line :: rest, h, out => by
    by_cases hline : byteLength line < lineLimit
    · have hpush (text : List Char) : (answers ++ out).push text = answers ++ out.push text := by
        simp
      rw [serveRaw_cons hline, serveRaw_cons hline, serveLine_preceded]
      cases h.serveLine (dropReturn line) with
      | skipped => exact serveRaw_after answers rest h out
      | broken g ending => rfl
      | answered g text last =>
        simp only [LineStep.preceded, hpush, reportOpen_preceded, serveRaw_after answers rest]
        cases last <;> rfl
    · rw [serveRaw_overlong hline, serveRaw_overlong hline]
      rfl

/-! ### Two texts -/

/-- Serving ends with a line if it asks to stop. -/
theorem last_of_serveLine {text : List Char} {last : Bool}
    (hstep : h.serveLine line = .answered g text last) : last = stops line := by
  unfold serveLine answerLine decode at hstep
  unfold stops
  split at hstep
  · cases hstep
  · cases hread : Command.read line with
    | none =>
      simp only [hread] at hstep
      split at hstep
      · cases hstep
      · cases hstep
        rfl
    | some c =>
      simp only [hread] at hstep
      split at hstep
      · cases hstep
      · split at hstep
        · cases hstep
        · cases hstep
          rfl

/-- A line after which serving breaks off does not end it in order. -/
theorem ending_of_serveLine {ending : Ending} (hstep : h.serveLine line = .broken g ending) :
    ending ≠ .finished := by
  unfold serveLine at hstep
  split at hstep
  · cases hstep
  · simp only at hstep
    split at hstep
    · cases hstep
      simp
    · split at hstep <;> cases hstep
      simp

/-- **Serving more lines.** After lines that are not too long and do not ask
to stop, serving goes on with the lines behind them, on the host as it was
before open instances were reported; unless it has broken off. -/
theorem serveRaw_append (more : List (List Char)) :
    ∀ (lines : List (List Char)) (h : Host σ) (out : Array (List Char)),
      (∀ line ∈ lines, byteLength line < lineLimit ∧ stops (dropReturn line) = false) →
      (∃ g answers, serveRaw lines h out = ⟨g.reportOpen, answers, .finished⟩ ∧
        serveRaw (lines ++ more) h out = serveRaw more g answers) ∨
      (serveRaw lines h out).ending ≠ .finished ∧
        serveRaw (lines ++ more) h out = serveRaw lines h out
  | [], h, out, _ => Or.inl ⟨h, out, rfl, rfl⟩
  | line :: rest, h, out, hlines => by
    obtain ⟨⟨hline, hstop⟩, hrest⟩ := List.forall_mem_cons.mp hlines
    rw [List.cons_append, serveRaw_cons hline, serveRaw_cons hline]
    cases hstep : h.serveLine (dropReturn line) with
    | skipped => exact serveRaw_append more rest h out hrest
    | broken g ending => exact Or.inr ⟨ending_of_serveLine hstep, rfl⟩
    | answered g text last =>
      obtain rfl : last = false := (last_of_serveLine hstep).trans hstop
      exact serveRaw_append more rest g (out.push text) hrest

/-! ### Blank lines -/

theorem blank_dropReturn (hblank : line.all isBlank = true) :
    (dropReturn line).all isBlank = true := by
  have hsub : ∀ c ∈ dropReturn line, c ∈ line := by
    unfold dropReturn
    split
    · rename_i rest hreverse
      intro c hc
      rw [← List.mem_reverse, hreverse]
      exact List.mem_cons_of_mem _ (List.mem_reverse.mp hc)
    · exact fun _ hc => hc
  rw [List.all_eq_true] at hblank ⊢
  exact fun c hc => hblank c (hsub c hc)

theorem serveRaw_blank (hblank : trim line = []) (hline : byteLength line < lineLimit)
    (rest : List (List Char)) (h : Host σ) (out : Array (List Char)) :
    serveRaw (line :: rest) h out = serveRaw rest h out := by
  have hskip := serveLine_blank (h := h) (blank_dropReturn (trim_eq_nil_iff.mp hblank))
  rw [serveRaw_cons hline, hskip]

/-- Behind a line, lines may stand for others that are served alike. -/
theorem serveRaw_congr {lines lines' : List (List Char)}
    (hsame : ∀ (h : Host σ) (out : Array (List Char)), serveRaw lines h out = serveRaw lines' h out)
    (line : List Char) (h : Host σ) (out : Array (List Char)) :
    serveRaw (line :: lines) h out = serveRaw (line :: lines') h out := by
  by_cases hline : byteLength line < lineLimit
  · simp only [serveRaw_cons hline, hsame]
  · rw [serveRaw_overlong hline, serveRaw_overlong hline]

end Host

/-- **Blank lines are passed over**, wherever they are put. -/
theorem Padded.serveRaw_eq {text padded : List Char} (hpadded : Padded text padded) :
    ∀ (h : Host σ) (out : Array (List Char)),
      Host.serveRaw (rawLines padded) h out = Host.serveRaw (rawLines text) h out := by
  have hsize {line : List Char} (hfits : (String.ofList line).utf8ByteSize < 10 * 1024 * 1024) :
      byteLength line < Host.lineLimit := by
    rw [byteLength_eq]
    exact hfits
  induction hpadded with
  | same text => exact fun _ _ => rfl
  | line hfeed _ ih =>
    rw [rawLines_append hfeed, rawLines_append hfeed]
    exact Host.serveRaw_congr ih _
  | blank hfeed hblank hfits _ ih =>
    intro h out
    rw [rawLines_append hfeed, Host.serveRaw_blank hblank (hsize hfits)]
    exact ih h out
  | @last blanks hfeed hblank hfits =>
    intro h out
    by_cases hne : blanks = []
    · rw [hne]
    · rw [rawLines_last hfeed hne, Host.serveRaw_blank hblank (hsize hfits)]
      rfl
  | ended hfeed hne _ ih =>
    rw [rawLines_append hfeed, rawLines_last hfeed hne]
    exact Host.serveRaw_congr ih _

namespace Host

/-! ### Serving on -/

/-- Serving on after open instances were reported is serving on as if they had
not been, but for the record that reports them. -/
theorem serve_reportOpen (g : Host σ) (answers : Array (List Char)) (text : List Char) :
    let t := g.reportOpen.serve text
    let whole := serveRaw (rawLines text) g answers
    whole.answers = answers ++ t.answers ∧ whole.ending = t.ending ∧
    ∃ earlier later : Array LogRecord,
      t.host.ledger.log = earlier ++
        (if 0 < g.openCount then #[openRecord g.openCount] else #[]) ++ later ∧
      whole.host = { t.host with ledger := { t.host.ledger with log := earlier ++ later } } := by
  intro t whole
  -- the host with its log taken away, from which both servings start
  let bare : Host σ := { g with ledger := { g.ledger with log := #[] } }
  let report := if 0 < g.openCount then #[openRecord g.openCount] else #[]
  have hg : g = bare.preceded g.ledger.log := by
    simp [bare, preceded, Ledger.preceded]
  have hreport : g.reportOpen = bare.preceded (g.ledger.log ++ report) := by
    rw [reportOpen_eq]
    simp [bare, report, preceded, Ledger.preceded]
  have hwhole : whole = (serveRaw (rawLines text) bare #[]).after g.ledger.log answers := by
    rw [← serveRaw_after, ← hg, Array.append_empty]
  have ht : t = (serveRaw (rawLines text) bare #[]).after (g.ledger.log ++ report) #[] := by
    rw [← serveRaw_after, ← hreport, Array.append_empty]
    rfl
  rw [hwhole, ht]
  refine ⟨by simp [Served.after], rfl, g.ledger.log,
    (serveRaw (rawLines text) bare #[]).host.ledger.log, rfl, ?_⟩
  simp [Served.after, preceded, Ledger.preceded]

theorem text_append {s t whole : Served σ} (hanswers : whole.answers = s.answers ++ t.answers) :
    whole.text = s.text ++ t.text := by
  unfold Served.text
  rw [hanswers, Array.toList_append, List.flatMap_append, String.ofList_append]

/-- The program's host serves lines that are not too long to their end, if it
does not run out of identifiers. -/
theorem Holds.serveRaw_ending {strict : Bool} {h : OffsetHost} {T : Holdings} {cell : String → ℕ}
    (hh : Holds strict h T cell) {lines : List (List Char)}
    (hfits : ∀ line ∈ lines, byteLength line < lineLimit) :
    (serveRaw lines h #[]).ending = .finished ∨
      (serveRaw lines h #[]).ending = .aborted "no free identifier" ∧
        (serveRaw lines h #[]).host.Exhausted := by
  have hall : lines.all (fun line => decide (byteLength line < lineLimit)) = true := by
    simpa using hfits
  unfold serveRaw
  simp only [hall, Bool.not_true]
  rcases hh.serveLines_eq false _ #[] with hexhausted | ⟨answers, g, -, heq⟩
  · exact Or.inr hexhausted
  · rw [heq]
    exact Or.inl rfl

/-- **Serving composes.** A text of whole lines, none of which asks to stop or
takes 10 MiB, is served before another text on the same host.

* If the first serving ends in order, the answers of both together are those
  to the two texts put together, served at once; serving ends in the same way;
  and the hosts are the same but for the warning with which the first serving
  ended, if instances were open.
* If it does not, because an answer could not be written or a call was
  aborted, the two texts put together are served like the first alone.
* The program's own host comes to the end of the first text in order, after
  any commands, unless it runs out of identifiers (it would search for ever).
* Blank lines that are added between the lines of a text change nothing. -/
theorem serve_composes (h : Host σ) (first second : List Char)
    (hended : first = [] ∨ first.getLast? = some '\n')
    (hlines : ∀ line ∈ rawLines first, (String.ofList line).utf8ByteSize < 10 * 1024 * 1024 ∧
      stops (dropReturn line) = false) :
    let s := h.serve first
    let t := s.host.serve second
    let whole := h.serve (first ++ second)
    (s.ending = .finished →
      whole.text = s.text ++ t.text ∧ whole.ending = t.ending ∧
      ∃ earlier later : Array LogRecord,
        t.host.ledger.log = earlier ++
          (if 0 < s.host.openCount then #[openRecord s.host.openCount] else #[]) ++ later ∧
        whole.host = { t.host with ledger := { t.host.ledger with log := earlier ++ later } }) ∧
    (s.ending ≠ .finished → whole = s) ∧
    (∀ (strict : Bool) (supply : Supply) (complaint : List Char → String) (cs : List Command),
      let s := ((newHost strict supply complaint).afterCommands cs).serve first
      s.ending = .finished ∨ s.ending = .aborted "no free identifier" ∧ s.host.Exhausted) ∧
    ∀ text padded, Padded text padded → h.serve padded = h.serve text := by
  intro s t whole
  have hfits : ∀ line ∈ rawLines first,
      byteLength line < lineLimit ∧ stops (dropReturn line) = false := by
    intro line hline
    rw [byteLength_eq]
    exact hlines line hline
  have happend : (∃ g answers, s = ⟨g.reportOpen, answers, .finished⟩ ∧
        whole = serveRaw (rawLines second) g answers) ∨ s.ending ≠ .finished ∧ whole = s := by
    have hwhole : whole = serveRaw (rawLines first ++ rawLines second) h #[] := by
      rw [← rawLines_append_of_ended hended]
      rfl
    rw [hwhole]
    exact serveRaw_append (rawLines second) (rawLines first) h #[] hfits
  refine ⟨fun hfinished => ?_, fun hbroken => ?_, fun strict supply complaint cs => ?_,
    fun text padded hpadded => ?_⟩
  · rcases happend with ⟨g, answers, hs, hrest⟩ | ⟨hbroken, -⟩
    · have hhost : s.host = g.reportOpen := by rw [hs]
      have hcount : s.host.openCount = g.openCount := by rw [hhost, reportOpen_eq]; rfl
      have ht : t = g.reportOpen.serve second := by rw [← hhost]
      obtain ⟨hanswers, hending, hlogs⟩ := serve_reportOpen g answers second
      rw [← hrest, ← ht] at hanswers hending hlogs
      rw [hcount]
      exact ⟨text_append (by rw [hanswers, hs]), hending, hlogs⟩
    · exact absurd hfinished hbroken
  · rcases happend with ⟨g, answers, hs, -⟩ | ⟨-, hsame⟩
    · rw [hs] at hbroken
      exact absurd rfl hbroken
    · exact hsame
  · obtain ⟨T, cell, hh, -⟩ := exists_holds strict supply complaint cs
    exact hh.serveRaw_ending fun line hline => (hfits line hline).1
  · rw [serve_eq, serve_eq]
    exact hpadded.serveRaw_eq h #[]

/-- An instance is opened by the first text and closed by the second, after a
blank line. The warning in between is all that tells the two servings from
one. -/
theorem serve_composes_over_open_instance :
    let start := "\x7b\"type\":\"open\",\"function\":\"wasmati.getBufferLocationMap\"\x7d\r\n".toList
    let stop := "\x7b\"type\":\"finalize\",\"id\":\"00000000-0000-4000-8000-000000000001\"\x7d".toList
    let h := newHost false {}
    let s := h.serve start
    let t := s.host.serve stop
    let whole := h.serve (start ++ stop)
    s.ending = .finished ∧ whole.text = s.text ++ t.text ∧ whole.ending = t.ending ∧
      t.host.warnings = [openRecord 1] ∧ whole.host.warnings = [] ∧
      h.serve (start ++ ('\t' :: '\n' :: stop)) = whole := by
  intro start stop h s t whole
  have hlines : ∀ line ∈ rawLines start, (String.ofList line).utf8ByteSize < 10 * 1024 * 1024 ∧
      stops (dropReturn line) = false := by
    decide +kernel
  have hfinished : s.ending = .finished := by decide +kernel
  obtain ⟨hordered, -, -, hpadded⟩ := serve_composes h start stop (Or.inr (by decide)) hlines
  obtain ⟨htext, hending, -⟩ := hordered hfinished
  have hsplit (rest : List Char) : start ++ rest = start.dropLast ++ '\n' :: rest := rfl
  have hblank : Padded (start ++ stop) (start ++ ('\t' :: '\n' :: stop)) := by
    rw [hsplit, hsplit]
    exact .line (by decide)
      (@Padded.blank ['\t'] stop stop (by decide) (by decide) (by decide) (.same stop))
  exact ⟨hfinished, htext, hending, by decide +kernel, by decide +kernel, hpadded _ _ hblank⟩

end Host
end OffsetGaps
