/-
# Commands read back

A command can be written as many JSON objects: its fields come in any order,
an empty one may be left out, other members may stand between them, and the
object itself may be spelled in any way. Reading the object gives the command
back, whatever follows the closing brace, with every number as it was
written.

Members are taken in one after another. Each sets its own field to what the
command has there and leaves the other fields alone, and a member with
another name changes nothing. So at the end every field is as in the command
that was written, if it was set on the way or empty from the start.

Key definitions: `Value.WrittenAs`, `Value.ListedAs`, `Command.AgreeAt`,
`Command.copy`, `Command.Carries`, `Command.Encodes`.
Key theorems: `Field.ofName?_eq_some`, `Command.set_of_carries`,
`Command.exists_foldlM_member`, `Command.Encodes.ofJson_eq`,
`Command.read_undoes_encoding`.
-/
import OffsetGaps.Proofs.Spellings
import OffsetGaps.Protocol.Command

namespace OffsetGaps

/-! ### Scalars -/

/-- A null, a truth value, a text or a number, and the JSON value that is
written for it. -/
inductive Value.WrittenAs : Value → Json → Prop where
  | null : WrittenAs .null .null
  | bool (b : Bool) : WrittenAs (.bool b) (.bool b)
  | text (s : String) : WrittenAs (.text s) (.string s)
  | number {literal : String} (h : Json.Literal literal.toList) :
    WrittenAs (.number literal) (.number literal)

namespace Value.WrittenAs

variable {v : Value} {j : Json}

theorem ofJson_eq (h : v.WrittenAs j) : Value.ofJson j = v := by cases h <;> rfl

theorem depth_eq (h : v.WrittenAs j) : j.depth = 0 := by cases h <;> rfl

theorem valid_tokens (h : v.WrittenAs j) : ∀ t ∈ j.tokens, t.Valid := by
  cases h with
  | number h => simpa [Json.tokens, Token.Valid] using Json.isNumberLiteral_of_literal h
  | _ => simp [Json.tokens, Token.Valid]

end Value.WrittenAs

/-- A list of such values, or none, and the JSON value that is written for
it. -/
inductive Value.ListedAs : Option (List Value) → Json → Prop where
  | absent : ListedAs none .null
  | items {values : List Value} {js : List Json} (h : List.Forall₂ Value.WrittenAs values js) :
    ListedAs (some values) (.array js)

namespace Value.ListedAs

variable {values : Option (List Value)} {j : Json}

theorem map_ofJson {values : List Value} {js : List Json}
    (h : List.Forall₂ Value.WrittenAs values js) : js.map Value.ofJson = values := by
  induction h with
  | nil => rfl
  | cons hfirst _ ih => rw [List.map_cons, hfirst.ofJson_eq, ih]

theorem forall_items {values : List Value} {js : List Json}
    (h : List.Forall₂ Value.WrittenAs values js) : ∀ j ∈ js, ∃ v : Value, v.WrittenAs j := by
  induction h with
  | nil => simp
  | cons hfirst _ ih => exact List.forall_mem_cons.mpr ⟨⟨_, hfirst⟩, ih⟩

theorem listField_eq (h : ListedAs values j) : Command.listField j = some values := by
  cases h with
  | absent => rfl
  | items h => rw [Command.listField, map_ofJson h]

theorem depth_le (h : ListedAs values j) : j.depth ≤ 1 := by
  cases h with
  | absent => simp [Json.depth]
  | @items values js h =>
    have hitems : Json.itemDepth js ≤ 0 := by
      apply Json.itemDepth_le
      intro j hj
      obtain ⟨v, hv⟩ := forall_items h j hj
      rw [hv.depth_eq]
    rw [Json.depth]
    omega

theorem valid_tokens (h : ListedAs values j) : ∀ t ∈ j.tokens, t.Valid := by
  cases h with
  | absent => simp [Json.tokens, Token.Valid]
  | @items values js h =>
    have hitems : ∀ j ∈ js, ∀ t ∈ j.tokens, t.Valid := by
      intro j hj
      obtain ⟨v, hv⟩ := forall_items h j hj
      exact hv.valid_tokens
    rw [Json.tokens, List.forall_mem_cons]
    exact ⟨trivial, Json.valid_itemTokens hitems (by simp)⟩

end Value.ListedAs

/-! ### Names -/

namespace Field

theorem mem_all (f : Field) : f ∈ all := by cases f <;> decide

/-- No two fields have the same name, the case of letters aside. -/
theorem ofName?_eq_some {f : Field} {name : String} (h : sameLetters f.name name = true) :
    ofName? name = some f := by
  have hname (g : Field) : sameLetters g.name name = sameLetters g.name f.name := by
    have hletters : f.name.toList.map foldLetter = name.toList.map foldLetter := by
      simpa [sameLetters] using h
    rw [sameLetters, sameLetters, hletters]
  have hown : ofName? f.name = some f := by cases f <;> decide
  rw [← hown]
  simp only [ofName?, hname]

theorem ofName?_eq_none {name : String} (h : ∀ f : Field, sameLetters f.name name = false) :
    ofName? name = none := by
  simp [ofName?, h]

end Field

/-! ### Fields -/

namespace Command

/-- Two commands have the same in a field. -/
def AgreeAt (d c : Command) : Field → Prop
  | .type => d.type = c.type
  | .function => d.function = c.function
  | .id => d.id = c.id
  | .value => d.value = c.value
  | .values => d.values = c.values

theorem eq_of_agreeAt {d c : Command} (h : ∀ f, d.AgreeAt c f) : d = c := by
  obtain ⟨type, function, id, value, values⟩ := d
  obtain rfl : type = c.type := h .type
  obtain rfl : function = c.function := h .function
  obtain rfl : id = c.id := h .id
  obtain rfl : value = c.value := h .value
  obtain rfl : values = c.values := h .values
  rfl

/-- The command with one field taken from another. -/
def copy (d c : Command) : Field → Command
  | .type => { d with type := c.type }
  | .function => { d with function := c.function }
  | .id => { d with id := c.id }
  | .value => { d with value := c.value }
  | .values => { d with values := c.values }

theorem agreeAt_copy (d c : Command) (f : Field) : (d.copy c f).AgreeAt c f := by
  cases f <;> rfl

/-- Taking over a field keeps what is the same already. -/
theorem AgreeAt.copy {d c : Command} {g : Field} (h : d.AgreeAt c g) (f : Field) :
    (d.copy c f).AgreeAt c g := by
  cases f <;> cases g <;> simp_all [AgreeAt, Command.copy]

/-- The JSON value is what the command has in a field. -/
def Carries (c : Command) : Field → Json → Prop
  | .type, j => Value.WrittenAs (.text c.type) j
  | .function, j => Value.WrittenAs (.text c.function) j
  | .id, j => Value.WrittenAs (.text c.id) j
  | .value, j => c.value.WrittenAs j
  | .values, j => Value.ListedAs c.values j

section Carries

variable {c : Command} {f : Field} {j : Json}

theorem Carries.depth_le (h : c.Carries f j) : j.depth ≤ 1 := by
  cases f with
  | values => exact Value.ListedAs.depth_le h
  | _ => rw [Value.WrittenAs.depth_eq h]; decide

theorem Carries.valid_tokens (h : c.Carries f j) : ∀ t ∈ j.tokens, t.Valid := by
  cases f with
  | values => exact Value.ListedAs.valid_tokens h
  | _ => exact Value.WrittenAs.valid_tokens h

theorem set_of_carries (h : c.Carries f j) (d : Command) : d.set f j = some (d.copy c f) := by
  cases f with
  | type | function | id =>
    cases h
    rfl
  | value => rw [set, Value.WrittenAs.ofJson_eq h, copy]
  | values =>
    rw [set, Value.ListedAs.listField_eq h]
    rfl

end Carries

/-! ### Members -/

/-- The member has the name of a field and what the command has in it, or the
name of no field and any scalar. The case of letters makes no difference to a
name. -/
def Admits (c : Command) (m : String × Json) : Prop :=
  (∃ f : Field, sameLetters f.name m.1 = true ∧ c.Carries f m.2) ∨
    (∀ f : Field, sameLetters f.name m.1 = false) ∧ ∃ v : Value, v.WrittenAs m.2

/-- The members make up an object for the command: they are its fields, in
any order, and others, and a field that is left out is empty. -/
structure Encodes (c : Command) (members : List (String × Json)) : Prop where
  admitted : ∀ m ∈ members, c.Admits m
  complete : ∀ f : Field,
    (∃ m ∈ members, sameLetters f.name m.1 = true) ∨ ({} : Command).AgreeAt c f

section Members

variable {c : Command}

theorem Admits.depth_le {m : String × Json} (h : c.Admits m) : m.2.depth ≤ 1 := by
  rcases h with ⟨f, -, hcarries⟩ | ⟨-, v, hv⟩
  · exact hcarries.depth_le
  · rw [hv.depth_eq]
    decide

theorem Admits.valid_tokens {m : String × Json} (h : c.Admits m) : ∀ t ∈ m.2.tokens, t.Valid := by
  rcases h with ⟨f, -, hcarries⟩ | ⟨-, v, hv⟩
  · exact hcarries.valid_tokens
  · exact hv.valid_tokens

/-- **One member** makes a command agree at the field of its name, and
wherever it agreed before. -/
theorem exists_member {m : String × Json} (h : c.Admits m) (d : Command) :
    ∃ d', d.member m = some d' ∧
      ∀ f, sameLetters f.name m.1 = true ∨ d.AgreeAt c f → d'.AgreeAt c f := by
  rcases h with ⟨f, hname, hcarries⟩ | ⟨hother, -⟩
  · have hfield := Field.ofName?_eq_some hname
    have hmember : d.member m = some (d.copy c f) := by
      rw [member, hfield]
      exact set_of_carries hcarries d
    refine ⟨d.copy c f, hmember, ?_⟩
    rintro g (hg | hg)
    · obtain rfl : f = g := Option.some.inj (hfield.symm.trans (Field.ofName?_eq_some hg))
      exact agreeAt_copy d c f
    · exact hg.copy f
  · refine ⟨d, by rw [member, Field.ofName?_eq_none hother], ?_⟩
    rintro f (hf | hf)
    · rw [hother f] at hf
      cases hf
    · exact hf

/-- **All members.** At the end, the command agrees at every field that was
named, and wherever it agreed before. -/
theorem exists_foldlM_member {members : List (String × Json)} (h : ∀ m ∈ members, c.Admits m)
    (d : Command) :
    ∃ d', members.foldlM member d = some d' ∧
      ∀ f, (∃ m ∈ members, sameLetters f.name m.1 = true) ∨ d.AgreeAt c f → d'.AgreeAt c f := by
  induction members generalizing d with
  | nil =>
    refine ⟨d, rfl, ?_⟩
    rintro f (⟨m, hm, -⟩ | hf)
    · cases hm
    · exact hf
  | cons m members ih =>
    obtain ⟨hfirst, hmore⟩ := List.forall_mem_cons.mp h
    obtain ⟨d₁, hmember, hagree₁⟩ := exists_member hfirst d
    obtain ⟨d₂, hmembers, hagree₂⟩ := ih hmore d₁
    refine ⟨d₂, by rw [List.foldlM_cons, hmember]; exact hmembers, ?_⟩
    rintro f (⟨m', hm', hname⟩ | hf)
    · rcases List.mem_cons.mp hm' with rfl | hm'
      · exact hagree₂ f (Or.inr (hagree₁ f (Or.inl hname)))
      · exact hagree₂ f (Or.inl ⟨m', hm', hname⟩)
    · exact hagree₂ f (Or.inr (hagree₁ f (Or.inr hf)))

variable {members : List (String × Json)}

theorem Encodes.ofJson_eq (h : c.Encodes members) : ofJson (.object members) = some c := by
  obtain ⟨d, hfold, hagree⟩ := exists_foldlM_member h.admitted {}
  have hd : d = c := eq_of_agreeAt fun f => hagree f (h.complete f)
  rw [ofJson, hfold, hd]

theorem Encodes.depth_le (h : c.Encodes members) : (Json.object members).depth ≤ Json.maxDepth := by
  have hmembers : Json.memberDepth members ≤ 1 :=
    Json.memberDepth_le fun m hm => (h.admitted m hm).depth_le
  rw [Json.depth]
  unfold Json.maxDepth
  omega

theorem Encodes.valid_tokens (h : c.Encodes members) :
    ∀ t ∈ (Json.object members).tokens, t.Valid := by
  rw [Json.tokens, List.forall_mem_cons]
  exact ⟨trivial, Json.valid_memberTokens (fun m hm => (h.admitted m hm).valid_tokens) (by simp)⟩

end Members

/-! ### Commands -/

/-- The values of the command are nulls, truth values, texts and numbers. -/
def Plain (c : Command) : Prop :=
  (∃ j, c.value.WrittenAs j) ∧
    ∀ values, c.values = some values → ∀ v ∈ values, ∃ j, v.WrittenAs j

theorem Plain.exists_listedAs {c : Command} (h : c.Plain) : ∃ j, Value.ListedAs c.values j := by
  cases hvalues : c.values with
  | none => exact ⟨.null, .absent⟩
  | some values =>
    have hitems := h.2 values hvalues
    suffices hlist : ∃ js, List.Forall₂ Value.WrittenAs values js by
      obtain ⟨js, hjs⟩ := hlist
      exact ⟨.array js, .items hjs⟩
    clear hvalues
    induction values with
    | nil => exact ⟨[], .nil⟩
    | cons v values ih =>
      obtain ⟨⟨j, hj⟩, hmore⟩ := List.forall_mem_cons.mp hitems
      obtain ⟨js, hjs⟩ := ih hmore
      exact ⟨j :: js, .cons hj hjs⟩

theorem Plain.exists_encodes {c : Command} (h : c.Plain) : ∃ members, c.Encodes members := by
  have hcarried (f : Field) : ∃ j, c.Carries f j := by
    cases f with
    | type | function | id => exact ⟨_, .text _⟩
    | value => exact h.1
    | values => exact h.exists_listedAs
  choose j hj using hcarried
  have hself (name : String) : sameLetters name name = true := by simp [sameLetters]
  refine ⟨Field.all.map fun f => (f.name, j f), ?_, ?_⟩
  · intro m hm
    obtain ⟨f, -, rfl⟩ := List.mem_map.mp hm
    exact Or.inl ⟨f, hself f.name, hj f⟩
  · intro f
    exact Or.inl ⟨(f.name, j f), List.mem_map.mpr ⟨f, f.mem_all, rfl⟩, hself f.name⟩

/-- **Commands read back.** Each object that a command can be written as
reads as the command, in every spelling, the compact one among them, and
whatever follows it. -/
theorem read_undoes_encoding (c : Command) (hc : c.Plain) :
    (∃ members, c.Encodes members) ∧ ∀ members, c.Encodes members →
      Json.Spells (Json.object members).tokens (Json.text (.object members)) ∧
        ∀ text, Json.Spells (Json.object members).tokens text →
          ∀ rest, read (text ++ rest) = some c := by
  refine ⟨hc.exists_encodes, ?_⟩
  intro members hmembers
  refine ⟨Json.spells_text _, ?_⟩
  intro text htext rest
  have hread := Json.readFirst_of_spells hmembers.valid_tokens hmembers.depth_le htext rest
  rw [read, hread]
  exact hmembers.ofJson_eq

/-- An escaped name, a surrogate pair, a number that no floating-point number
equals, a member without a field, a name in capitals and an object that is
not closed behind the command. -/
theorem read_undoes_encoding_escaped :
    let c : Command :=
      { type := "😀\n"
        value := .number "9007199254740993"
        values := some [.null, .number "-1.50E+07"] }
    let members : List (String × Json) :=
      [("VALUES", .array [.null, .number "-1.50E+07"]), ("type", .string "😀\n"),
        ("note", .bool false), ("value", .number "9007199254740993")]
    let text := ("\x7b\"VALUES\":[null ,\t-1.50E+07],\"\\u0074ype\":\"\\uD83D\\ude00\\n\"," ++
      "\"note\":false,\"value\":9007199254740993\r\x7d").toList
    c.Plain ∧ c.Encodes members ∧ Json.Spells (Json.object members).tokens text ∧
      read (text ++ " \x7b".toList) = some c := by
  intro c members text
  have hoffset : Json.Literal "9007199254740993".toList :=
    @Json.Literal.parts [] "9007199254740993".toList [] [] (Or.inl rfl)
      (.digits ⟨by decide, by decide⟩ (by decide)) .absent .absent
  have hreal : Json.Literal "-1.50E+07".toList :=
    @Json.Literal.parts ['-'] ['1'] ['.', '5', '0'] ['E', '+', '0', '7'] (Or.inr rfl)
      (.digits ⟨by decide, by decide⟩ (by decide)) (.digits ⟨by decide, by decide⟩)
      (@Json.Literal.Exponent.digits 'E' ['+'] ['0', '7'] (Or.inr rfl) (Or.inr (Or.inl rfl))
        ⟨by decide, by decide⟩)
  have hplain : c.Plain := by
    refine ⟨⟨_, .number hoffset⟩, ?_⟩
    intro values hvalues
    cases hvalues
    exact List.forall_mem_cons.mpr ⟨⟨_, .null⟩, List.forall_mem_singleton.mpr ⟨_, .number hreal⟩⟩
  have hencodes : c.Encodes members := by
    constructor
    · simp only [members, List.forall_mem_cons]
      refine ⟨Or.inl ⟨.values, by decide, .items (.cons .null (.cons (.number hreal) .nil))⟩,
        Or.inl ⟨.type, by decide, .text _⟩, Or.inr ⟨?_, _, .bool false⟩,
        Or.inl ⟨.value, by decide, .number hoffset⟩, by simp⟩
      intro f
      cases f <;> decide
    · intro f
      cases f with
      | type | value | values => exact Or.inl (by decide)
      | function | id => exact Or.inr rfl
  have hspells : Json.Spells (Json.object members).tokens text := by
    have htype : (Token.string "type").SpelledAs "\"\\u0074ype\"".toList := by
      refine ⟨["\\u0074".toList, ['y'], ['p'], ['e']], ?_, by decide⟩
      have hplain (c : Char) (hc : c ∈ ['y', 'p', 'e']) : Json.CharText c [c] := by
        simp only [List.mem_cons, List.not_mem_nil, or_false] at hc
        rcases hc with rfl | rfl | rfl <;> exact .plain (by decide) (by decide) (by decide)
      exact .cons (.unit ⟨by decide, by decide⟩) (.cons (hplain 'y' (by decide))
        (.cons (hplain 'p' (by decide)) (.cons (hplain 'e' (by decide)) .nil)))
    have hface : (Token.string "😀\n").SpelledAs "\"\\uD83D\\ude00\\n\"".toList := by
      refine ⟨["\\uD83D\\ude00".toList, "\\n".toList], ?_, by decide⟩
      exact .cons (@Json.CharText.pair '😀' "D83D".toList "de00".toList (by decide)
        ⟨by decide, by decide⟩ ⟨by decide, by decide⟩)
        (.cons (@Json.CharText.letter '\n' 'n' (by decide)) .nil)
    have h₁ := @Json.Spells.cons .closeObject [] ['\r'] _ _ (by decide) rfl .nil
    have h₂ := ((h₁.written (.number "9007199254740993")).written .colon).written (.string "value")
    have h₃ := (((h₂.written .comma).written (.bool false)).written .colon).written (.string "note")
    have h₄ := @Json.Spells.cons _ _ [] _ _ rfl hface (h₃.written .comma)
    have h₅ := @Json.Spells.cons _ _ [] _ _ rfl htype (h₄.written .colon)
    have h₆ := @Json.Spells.cons (.number "-1.50E+07") _ ['\t'] _ _ (by decide) rfl
      ((h₅.written .comma).written .closeArray)
    have h₇ := (@Json.Spells.cons .comma _ [' '] _ _ (by decide) rfl h₆).written .null
    have h₈ := ((h₇.written .openArray).written .colon).written (.string "VALUES")
    convert h₈.written .openObject using 1 <;> decide +kernel
  obtain ⟨-, hreads⟩ := (read_undoes_encoding c hplain).2 members hencodes
  exact ⟨hplain, hencodes, hspells, hreads text hspells _⟩

end Command
end OffsetGaps
