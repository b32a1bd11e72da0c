/-
# Answers read back

An answer is a JSON object with a type, with a member that says whether the
command was carried out, and with what there is to tell besides
(`Answer.json`). It is written as the compact text of this object, if the
result in it is a layout: so it stands on one line, whatever it repeats of its
command, and whoever reads the line gets the object back
(`Answer.exists_written`).

The codes of refusals are told apart by how they are written. So the error
code that is read off a line is the code of the refusal, and a line without
one is no refusal (`Answer.member_errorCode_iff`).

Key definitions: `Json.member?`, `Answer.json`, `Answer.code?`,
`Answer.Written`.
Key theorems: `ErrorCode.text_injective`, `Answer.text_eq`,
`Answer.exists_written`, `Answer.member_errorCode_iff`.
-/
import OffsetGaps.Proofs.Documents

namespace OffsetGaps

/-- What an object has under a name; the first member counts. -/
def Json.member? (name : String) : Json → Option Json
  | .object members => members.lookup name
  | _ => none

/-! ### Codes -/

theorem ErrorCode.text_ne_empty (code : ErrorCode) : code.text.isEmpty = false := by
  cases code <;> decide

/-- Different codes are written differently. -/
theorem ErrorCode.text_injective : Function.Injective ErrorCode.text := by
  intro code other h
  cases code <;> cases other <;> first | rfl | exact absurd h (by decide)

namespace Answer

/-! ### The object of an answer -/

/-- The code of a refusal. -/
def code? : Answer → Option ErrorCode
  | .refused _ code _ => some code
  | _ => none

/-- The result that an answer brings. -/
def result? : Answer → Option Value
  | .finalized _ result => some result
  | .aggregated result => some result
  | _ => none

def type : Answer → String
  | .init => "init"
  | .functions _ => "functions"
  | .opened _ => "open"
  | .updated _ => "update"
  | .finalized _ _ => "finalize"
  | .discarded _ => "discard"
  | .aggregated _ => "aggregate"
  | .shutdown => "shutdown"
  | .refused _ _ _ => "error"

/-- A text as a member, which is left out if it is empty. -/
def textMember (name value : String) : List (String × Json) :=
  if value.isEmpty then [] else [(name, .string value)]

def infoJson (f : FunctionInfo) : Json :=
  .object ([("name", .string f.name), ("signature", .string f.signature)] ++
    textMember "description" f.description)

def functionsMember : List FunctionInfo → List (String × Json)
  | [] => []
  | known => [("functions", .array (known.map infoJson))]

/-- A result as a member, if it is a layout. -/
def resultMember : Value → List (String × Json)
  | .layout l => [("result", l.json)]
  | _ => []

/-- What an answer tells besides its type and its success. -/
def details : Answer → List (String × Json)
  | .init => [("name", .string "buffer-layout-go"), ("version", .string "0.1.0")]
  | .functions known => functionsMember known
  | .opened id => textMember "id" id
  | .updated id => textMember "id" id
  | .finalized id result => textMember "id" id ++ resultMember result
  | .discarded id => textMember "id" id
  | .aggregated result => resultMember result
  | .shutdown => []
  | .refused command code message =>
    textMember "commandType" command ++ [("errorCode", .string code.text)] ++
      textMember "message" message

/-- **The object that an answer is**: only a refusal is no success. -/
def json (a : Answer) : Json :=
  .object ([("type", .string a.type), ("success", .bool a.code?.isNone)] ++ a.details)

/-- The answer is written as this text, on one line, from which it is read
back. -/
structure Written (a : Answer) (text : List Char) : Prop where
  text_eq : a.text = .ok text
  line : '\n' ∉ text
  readFirst_eq : Json.readFirst text = some (a.json, [])

variable {a : Answer}

/-! ### Its text -/

theorem textField_eq (name value : String) :
    textField name value = Json.memberTexts (textMember name value) := by
  rw [textField, textMember]
  split <;> rfl

theorem memberTexts_append (first second : List (String × Json)) :
    Json.memberTexts (first ++ second) = Json.memberTexts first ++ Json.memberTexts second := by
  simp only [Json.memberTexts_eq, List.map_append]

theorem infoText_eq (f : FunctionInfo) : infoText f = Json.text (infoJson f) := by
  rw [infoText, infoJson, Json.text, memberTexts_append, textField_eq]
  rfl

theorem functionsField_eq (known : List FunctionInfo) :
    functionsField known = Json.memberTexts (functionsMember known) := by
  cases known with
  | nil => rfl
  | cons f rest =>
    have hinfos : (f :: rest).map infoText = Json.itemTexts ((f :: rest).map infoJson) := by
      rw [Json.itemTexts_eq, List.map_map]
      exact List.map_congr_left fun f _ => infoText_eq f
    rw [functionsField, hinfos]
    · rfl
    · exact List.cons_ne_nil _ _

theorem resultField_layout (l : Layout) :
    resultField (.layout l) = .ok (Json.memberTexts (resultMember (.layout l))) := by
  show Except.ok [("result", Value.layoutText l)] = _
  rw [l.layoutText_eq]
  rfl

/-- An answer is written as the text of its object. -/
theorem text_eq (h : ∀ v, a.result? = some v → ∃ l, v = .layout l) :
    a.text = .ok (Json.text a.json) := by
  have hfields : a.fields = .ok (heading a.type a.code?.isNone ++ Json.memberTexts a.details) := by
    cases a with
    | init => rfl
    | functions known => rw [fields, functionsField_eq]; rfl
    | opened id | updated id | discarded id => rw [fields, textField_eq]; rfl
    | finalized id result =>
      obtain ⟨l, rfl⟩ := h result rfl
      rw [fields, resultField_layout, details, memberTexts_append, ← List.append_assoc, ← textField_eq]
      rfl
    | aggregated result =>
      obtain ⟨l, rfl⟩ := h result rfl
      rw [fields, resultField_layout]
      rfl
    | shutdown => rfl
    | refused command code message =>
      have hcode : textField "errorCode" code.text =
          Json.memberTexts [("errorCode", .string code.text)] := by
        rw [textField, code.text_ne_empty]
        rfl
      rw [fields, details, memberTexts_append, memberTexts_append, hcode, textField_eq, textField_eq]
      simp only [List.append_assoc]
      rfl
  rw [text, hfields, json, Json.text, memberTexts_append]
  rfl

theorem sound_textMember {n : ℕ} (name value : String) :
    ∀ m ∈ textMember name value, m.2.Sound n := by
  rw [textMember]
  split
  · exact fun _ h => by cases h
  · exact List.forall_mem_singleton.mpr (Json.sound_string value)

theorem sound_functionsMember {n : ℕ} (known : List FunctionInfo) :
    ∀ m ∈ functionsMember known, m.2.Sound (n + 2) := by
  have hinfo : ∀ f : FunctionInfo, (infoJson f).Sound (n + 1) := by
    intro f
    apply Json.sound_object
    simp only [List.forall_mem_append, List.forall_mem_cons]
    exact ⟨⟨Json.sound_string _, Json.sound_string _, fun _ h => by cases h⟩, sound_textMember _ _⟩
  cases known with
  | nil => exact fun _ h => by cases h
  | cons f rest =>
    refine List.forall_mem_singleton.mpr (Json.sound_array ?_)
    simp only [List.forall_mem_map]
    exact fun f _ => hinfo f

theorem sound_resultMember {n : ℕ} (v : Value) : ∀ m ∈ resultMember v, m.2.Sound (n + 1) := by
  cases v with
  | layout l => exact List.forall_mem_singleton.mpr l.sound_json
  | _ => exact fun _ h => by cases h

theorem sound_json (a : Answer) : a.json.Sound 3 := by
  have hdetails : ∀ m ∈ a.details, m.2.Sound 2 := by
    cases a with
    | init =>
      rw [details, List.forall_mem_cons, List.forall_mem_singleton]
      exact ⟨Json.sound_string _, Json.sound_string _⟩
    | functions known => exact sound_functionsMember known
    | opened id | updated id | discarded id => exact sound_textMember _ _
    | finalized id result =>
      exact List.forall_mem_append.mpr ⟨sound_textMember _ _, sound_resultMember result⟩
    | aggregated result => exact sound_resultMember result
    | shutdown => exact fun _ h => by cases h
    | refused command code message =>
      rw [details, List.forall_mem_append, List.forall_mem_append, List.forall_mem_singleton]
      exact ⟨⟨sound_textMember _ _, Json.sound_string _⟩, sound_textMember _ _⟩
  apply Json.sound_object
  simp only [List.forall_mem_append, List.forall_mem_cons]
  exact ⟨⟨Json.sound_string _, Json.sound_bool _, fun _ h => by cases h⟩, hdetails⟩

/-- **An answer is written on one line and reads back**, if the result that it
brings is a layout. -/
theorem exists_written (h : ∀ v, a.result? = some v → ∃ l, v = .layout l) :
    ∃ text, a.Written text :=
  ⟨_, text_eq h, a.sound_json.line, a.sound_json.readFirst_text (by decide)⟩

/-! ### Its members -/

theorem member_success : a.json.member? "success" = some (.bool a.code?.isNone) := rfl

theorem lookup_textMember {name other value : String} (h : other ≠ name) :
    (textMember name value).lookup other = none := by
  rw [textMember]
  split
  · rfl
  · rw [List.lookup_cons, beq_eq_false_iff_ne.mpr h]
    rfl

theorem member_errorCode :
    a.json.member? "errorCode" = a.code?.map fun code => .string code.text := by
  have hskip : a.json.member? "errorCode" = a.details.lookup "errorCode" := rfl
  rw [hskip]
  cases a with
  | init | shutdown => rfl
  | functions known => cases known <;> rfl
  | opened id | updated id | discarded id => exact lookup_textMember (by decide)
  | finalized id result =>
    rw [details, List.lookup_append, lookup_textMember (by decide)]
    cases result <;> rfl
  | aggregated result => cases result <;> rfl
  | refused command code message =>
    rw [details, List.append_assoc, List.lookup_append, lookup_textMember (by decide)]
    rfl

/-- **The error code on a line** is the code of the refusal. -/
theorem member_errorCode_iff {code : ErrorCode} :
    a.json.member? "errorCode" = some (.string code.text) ↔ a.code? = some code := by
  rw [member_errorCode, Option.map_eq_some_iff]
  constructor
  · rintro ⟨other, hother, htext⟩
    rw [hother, ErrorCode.text_injective (Json.string.inj htext)]
  · exact fun h => ⟨code, h, rfl⟩

end Answer
end OffsetGaps
