/-
# Documents read back

A JSON value is a sequence of tokens, and a text is read one token at a time.
So reading back what was written takes two steps that know nothing of each
other. The machine turns the tokens of a value into the value
(`Json.feeds_tokens`), whatever it is inside of, if nesting does not go too
deep. And a text gives the tokens that are written in it (`Json.Lexes`): the
compact text of any value does, and so does a layout with its entries on
lines of their own.

Key definitions: `Json.tokens`, `Json.depth`, `Json.feeds`, `Json.Lexes`,
`Json.Sound`, `Layout.json`.
Key theorems: `Json.feeds_tokens`, `Json.readFirst_of_lexes`,
`Json.readFirst_text`, `Layout.readFirst_jsonText`,
`Layout.readFirst_layoutText`.
-/
import OffsetGaps.Json.Reader
import OffsetGaps.Proofs.Tokens

namespace OffsetGaps
namespace Json

mutual

/-- The tokens of a value. -/
def tokens : Json → List Token
  | .null => [.null]
  | .bool b => [.bool b]
  | .number literal => [.number literal]
  | .string s => [.string s]
  | .array items => .openArray :: itemTokens [] items
  | .object members => .openObject :: memberTokens [] members

/-- The tokens of items and of the end behind them; `lead` stands before the
first item. -/
def itemTokens (lead : List Token) : List Json → List Token
  | [] => [.closeArray]
  | item :: rest => lead ++ tokens item ++ itemTokens [.comma] rest

/-- The tokens of members and of the end behind them; `lead` stands before
the first member. -/
def memberTokens (lead : List Token) : List (String × Json) → List Token
  | [] => [.closeObject]
  | (name, value) :: rest =>
    lead ++ .string name :: .colon :: tokens value ++ memberTokens [.comma] rest

end

mutual

/-- How deep arrays and objects are nested. -/
def depth : Json → ℕ
  | .array items => itemDepth items + 1
  | .object members => memberDepth members + 1
  | _ => 0

/-- How deep the items of an array are nested. -/
def itemDepth : List Json → ℕ
  | [] => 0
  | item :: rest => max (depth item) (itemDepth rest)

/-- How deep the members of an object are nested. -/
def memberDepth : List (String × Json) → ℕ
  | [] => 0
  | (_, value) :: rest => max (depth value) (memberDepth rest)

end

/-! ### The machine -/

/-- Takes a token, if the machine is still running. -/
def Progress.take : Progress → Token → Progress
  | .more s, t => feed s t
  | _, _ => .refused

/-- Takes tokens one after another. -/
def feeds (p : Progress) (ts : List Token) : Progress := ts.foldl Progress.take p

theorem feeds_cons (s : State) (t : Token) (ts : List Token) :
    feeds (.more s) (t :: ts) = feeds (feed s t) ts := rfl

theorem feeds_append (p : Progress) (ts ts' : List Token) :
    feeds p (ts ++ ts') = feeds (feeds p ts) ts' := List.foldl_append

theorem feeds_refused (ts : List Token) : feeds .refused ts = .refused := by
  induction ts with
  | nil => rfl
  | cons t ts ih => exact ih

/-- A machine that has stopped takes no token. -/
theorem eq_of_feeds_complete {v w : Json} {ts : List Token}
    (h : feeds (.complete v) ts = .complete w) : v = w ∧ ts = [] := by
  cases ts with
  | nil => exact ⟨Progress.complete.inj h, rfl⟩
  | cons t ts =>
    have hrefused : feeds (.complete v) (t :: ts) = .refused := feeds_refused ts
    rw [hrefused] at h
    cases h

mutual

/-- **The tokens of a value make up the value**, which goes to the innermost
array or object. -/
theorem feeds_tokens : ∀ (v : Json) (stack : List Frame) {phase : Phase},
    phase = .value ∨ phase = .firstItem → stack.length + v.depth ≤ maxDepth →
      feeds (.more ⟨phase, stack⟩) v.tokens = supply v stack
  | .null, _, _, hphase, _ => by rcases hphase with rfl | rfl <;> rfl
  | .bool b, _, _, hphase, _ => by rcases hphase with rfl | rfl <;> rfl
  | .number literal, _, _, hphase, _ => by rcases hphase with rfl | rfl <;> rfl
  | .string s, _, _, hphase, _ => by rcases hphase with rfl | rfl <;> rfl
  | .array items, stack, phase, hphase, hdepth => by
    rw [depth] at hdepth
    have hroom : stack.length < maxDepth := by omega
    have hfeed : feed ⟨phase, stack⟩ .openArray = .more ⟨.firstItem, .array [] :: stack⟩ := by
      rcases hphase with rfl | rfl <;> simp [feed, feedValue, enter, hroom]
    rw [tokens, feeds_cons, hfeed]
    exact feeds_firstItem items stack (by omega)
  | .object members, stack, phase, hphase, hdepth => by
    rw [depth] at hdepth
    have hroom : stack.length < maxDepth := by omega
    have hfeed : feed ⟨phase, stack⟩ .openObject = .more ⟨.firstName, .object [] :: stack⟩ := by
      rcases hphase with rfl | rfl <;> simp [feed, feedValue, enter, hroom]
    rw [tokens, feeds_cons, hfeed]
    exact feeds_firstMember members stack (by omega)

theorem feeds_firstItem : ∀ (items : List Json) (stack : List Frame),
    stack.length + itemDepth items < maxDepth →
      feeds (.more ⟨.firstItem, .array [] :: stack⟩) (itemTokens [] items) =
        supply (.array items) stack
  | [], _, _ => rfl
  | item :: rest, stack, hdepth => by
    rw [itemDepth] at hdepth
    have hitem := feeds_tokens item (.array [] :: stack) (Or.inr rfl)
      (by simp only [List.length_cons]; omega)
    rw [itemTokens, List.nil_append, feeds_append, hitem]
    exact feeds_items rest [item] stack (by omega)

theorem feeds_items : ∀ (items done : List Json) (stack : List Frame),
    stack.length + itemDepth items < maxDepth →
      feeds (.more ⟨.next, .array done :: stack⟩) (itemTokens [.comma] items) =
        supply (.array (done.reverse ++ items)) stack
  | [], done, _, _ => by rw [List.append_nil]; rfl
  | item :: rest, done, stack, hdepth => by
    rw [itemDepth] at hdepth
    have hitem := feeds_tokens item (.array done :: stack) (Or.inl rfl)
      (by simp only [List.length_cons]; omega)
    have hrest := feeds_items rest (item :: done) stack (by omega)
    rw [List.reverse_cons, List.append_assoc, List.singleton_append] at hrest
    rw [itemTokens]
    show feeds (.more ⟨.value, .array done :: stack⟩) (item.tokens ++ _) = _
    rw [feeds_append, hitem]
    exact hrest

theorem feeds_firstMember : ∀ (members : List (String × Json)) (stack : List Frame),
    stack.length + memberDepth members < maxDepth →
      feeds (.more ⟨.firstName, .object [] :: stack⟩) (memberTokens [] members) =
        supply (.object members) stack
  | [], _, _ => rfl
  | (name, value) :: rest, stack, hdepth => by
    rw [memberDepth] at hdepth
    have hvalue := feeds_tokens value (.member [] name :: stack) (Or.inl rfl)
      (by simp only [List.length_cons]; omega)
    rw [memberTokens]
    show feeds (.more ⟨.value, .member [] name :: stack⟩) (value.tokens ++ _) = _
    rw [feeds_append, hvalue]
    exact feeds_members rest [(name, value)] stack (by omega)

theorem feeds_members : ∀ (members done : List (String × Json)) (stack : List Frame),
    stack.length + memberDepth members < maxDepth →
      feeds (.more ⟨.next, .object done :: stack⟩) (memberTokens [.comma] members) =
        supply (.object (done.reverse ++ members)) stack
  | [], done, _, _ => by rw [List.append_nil]; rfl
  | (name, value) :: rest, done, stack, hdepth => by
    rw [memberDepth] at hdepth
    have hvalue := feeds_tokens value (.member done name :: stack) (Or.inl rfl)
      (by simp only [List.length_cons]; omega)
    have hrest := feeds_members rest ((name, value) :: done) stack (by omega)
    rw [List.reverse_cons, List.append_assoc, List.singleton_append] at hrest
    rw [memberTokens]
    show feeds (.more ⟨.value, .member done name :: stack⟩) (value.tokens ++ _) = _
    rw [feeds_append, hvalue]
    exact hrest

end

/-! ### The tokens of a text -/

/-- The tokens are those that a text starts with; `rest` is what follows
them. -/
inductive Lexes : List Char → List Token → List Char → Prop where
  | nil (text : List Char) : Lexes text [] text
  | cons {text following rest : List Char} {t : Token} {ts : List Token}
    (hfirst : nextToken text = some (t, following)) (hmore : Lexes following ts rest) :
    Lexes text (t :: ts) rest

namespace Lexes

variable {text following rest : List Char} {t : Token} {ts : List Token}

/-- A token that is written in front of a text is its first token. -/
theorem written (t : Token) (ht : t.Valid) (hends : t.Ends following) (h : Lexes following ts rest) :
    Lexes (t.text ++ following) (t :: ts) rest :=
  .cons (nextToken_text ht hends) h

/-- White space in front makes no difference. -/
theorem spaced (blanks : List Char) (hblanks : blanks.all isSpace = true)
    (h : Lexes text (t :: ts) rest) : Lexes (blanks ++ text) (t :: ts) rest := by
  cases h with
  | cons hfirst hmore =>
    rw [← nextToken_blanks hblanks] at hfirst
    exact .cons hfirst hmore

/-- A name and a colon in front. -/
theorem named (name : String) (h : Lexes text ts rest) :
    Lexes (stringText name ++ ([':'] ++ text)) (.string name :: .colon :: ts) rest :=
  (h.written .colon trivial trivial).written (.string name) trivial trivial

theorem length_le (h : Lexes text ts rest) : ts.length + rest.length ≤ text.length := by
  induction h with
  | nil => simp
  | cons hfirst _ ih =>
    have hshorter := length_of_nextToken hfirst
    rw [List.length_cons]
    omega

/-- The machine runs over a text as it takes its tokens. -/
theorem run_eq (h : Lexes text ts rest) {s : State} {v : Json}
    (hfeeds : feeds (.more s) ts = .complete v) {fuel : ℕ} (hfuel : ts.length ≤ fuel) :
    run fuel s text = some (v, rest) := by
  induction h generalizing s fuel with
  | nil => cases hfeeds
  | @cons text following rest t ts hfirst hmore ih =>
    rw [List.length_cons] at hfuel
    obtain ⟨fuel, rfl⟩ : ∃ n, fuel = n + 1 := ⟨fuel - 1, by omega⟩
    have hfuel' : ts.length ≤ fuel := by omega
    rw [feeds_cons] at hfeeds
    unfold run
    simp only [hfirst]
    generalize feed s t = progress at hfeeds
    cases progress with
    | more s' => exact ih hfeeds hfuel'
    | complete w =>
      obtain ⟨rfl, rfl⟩ := eq_of_feeds_complete hfeeds
      cases hmore
      rfl
    | refused =>
      rw [feeds_refused] at hfeeds
      cases hfeeds

end Lexes

/-- **Reading a value back** from a text in which its tokens are written. -/
theorem readFirst_of_lexes {text rest : List Char} {v : Json} (hdepth : v.depth ≤ maxDepth)
    (h : Lexes text v.tokens rest) : readFirst text = some (v, rest) := by
  have hfeeds : feeds (.more {}) v.tokens = .complete v :=
    feeds_tokens v [] (Or.inl rfl) (by simpa using hdepth)
  have hlength := h.length_le
  exact h.run_eq hfeeds (by omega)

/-! ### Compact text -/

/-- Parts that are joined: behind the first one, each has the separator in
front. -/
theorem intercalate_cons (sep part : List Char) (parts : List (List Char)) :
    List.intercalate sep (part :: parts) = part ++ parts.flatMap (sep ++ ·) := by
  induction parts generalizing part with
  | nil => simp
  | cons next parts ih => rw [List.intercalate_cons_cons, ih]; simp

/-- A number ends before a comma and before a closing bracket. -/
theorem endsNumber_parts {text : List Char} (htext : endsNumber text = true)
    (parts : List (List Char)) : endsNumber (parts.flatMap ([','] ++ ·) ++ text) = true := by
  cases parts with
  | nil => exact htext
  | cons part parts => rfl

/-- A member as it is written. -/
def memberText (member : String × Json) : List Char :=
  stringText member.1 ++ ':' :: text member.2

theorem memberTexts_eq (members : List (String × Json)) :
    memberTexts members = members.map fun member => (member.1, text member.2) := by
  induction members with
  | nil => rfl
  | cons member members ih => rw [memberTexts, ih, List.map_cons]

theorem text_object (members : List (String × Json)) :
    text (.object members) = '\x7b' :: commaSeparated (members.map memberText) ++ ['\x7d'] := by
  rw [text, objectText, memberTexts_eq, List.map_map]
  rfl

mutual

/-- The compact text of a value gives its tokens. -/
theorem lexes_text : ∀ (v : Json) {following rest : List Char} {ts : List Token},
    (∀ t ∈ v.tokens, t.Valid) → endsNumber following = true → Lexes following ts rest →
      Lexes (text v ++ following) (v.tokens ++ ts) rest
  | .null, _, _, _, _, _, h => h.written .null trivial trivial
  | .bool b, _, _, _, _, _, h => h.written (.bool b) trivial trivial
  | .number literal, _, _, _, hvalid, hends, h =>
    h.written (.number literal) (hvalid _ List.mem_cons_self) hends
  | .string s, _, _, _, _, _, h => h.written (.string s) trivial trivial
  | .array [], _, _, _, _, _, h =>
    (h.written .closeArray trivial trivial).written .openArray trivial trivial
  | .array (item :: items), following, _, ts, hvalid, _, h => by
    have htext : text (.array (item :: items)) ++ following =
        ['['] ++ (text item ++ ((itemTexts items).flatMap ([','] ++ ·) ++ ']' :: following)) := by
      simp [text, itemTexts, arrayText, commaSeparated, intercalate_cons]
    have htokens : tokens (.array (item :: items)) ++ ts =
        .openArray :: (item.tokens ++ (itemTokens [.comma] items ++ ts)) := by
      simp [tokens, itemTokens]
    simp only [tokens, itemTokens, List.nil_append, List.forall_mem_cons, List.forall_mem_append]
      at hvalid
    have hitems := lexes_items items hvalid.2.2 h
    have hitem := lexes_text item hvalid.2.1 (endsNumber_parts rfl _) hitems
    rw [htext, htokens]
    exact hitem.written .openArray trivial trivial
  | .object [], _, _, _, _, _, h =>
    (h.written .closeObject trivial trivial).written .openObject trivial trivial
  | .object ((name, value) :: members), following, _, ts, hvalid, _, h => by
    have htext : text (.object ((name, value) :: members)) ++ following =
        ['\x7b'] ++ (stringText name ++ ([':'] ++ (text value ++
          ((members.map memberText).flatMap ([','] ++ ·) ++ '\x7d' :: following)))) := by
      simp [text_object, commaSeparated, intercalate_cons, memberText]
    have htokens : tokens (.object ((name, value) :: members)) ++ ts =
        .openObject :: .string name :: .colon ::
          (value.tokens ++ (memberTokens [.comma] members ++ ts)) := by
      simp [tokens, memberTokens]
    simp only [tokens, memberTokens, List.nil_append, List.cons_append, List.forall_mem_cons,
      List.forall_mem_append] at hvalid
    have hmembers := lexes_members members hvalid.2.2.2.2 h
    have hvalue := lexes_text value hvalid.2.2.2.1 (endsNumber_parts rfl _) hmembers
    rw [htext, htokens]
    exact (hvalue.named name).written .openObject trivial trivial

theorem lexes_items : ∀ (items : List Json) {following rest : List Char} {ts : List Token},
    (∀ t ∈ itemTokens [.comma] items, t.Valid) → Lexes following ts rest →
      Lexes ((itemTexts items).flatMap ([','] ++ ·) ++ ']' :: following)
        (itemTokens [.comma] items ++ ts) rest
  | [], _, _, _, _, h => h.written .closeArray trivial trivial
  | item :: items, following, _, ts, hvalid, h => by
    have htext : (itemTexts (item :: items)).flatMap ([','] ++ ·) ++ ']' :: following =
        [','] ++ (text item ++ ((itemTexts items).flatMap ([','] ++ ·) ++ ']' :: following)) := by
      simp [itemTexts]
    have htokens : itemTokens [.comma] (item :: items) ++ ts =
        .comma :: (item.tokens ++ (itemTokens [.comma] items ++ ts)) := by
      simp [itemTokens]
    simp only [itemTokens, List.cons_append, List.nil_append, List.forall_mem_cons,
      List.forall_mem_append] at hvalid
    have hitems := lexes_items items hvalid.2.2 h
    have hitem := lexes_text item hvalid.2.1 (endsNumber_parts rfl _) hitems
    rw [htext, htokens]
    exact hitem.written .comma trivial trivial

theorem lexes_members : ∀ (members : List (String × Json)) {following rest : List Char}
    {ts : List Token}, (∀ t ∈ memberTokens [.comma] members, t.Valid) → Lexes following ts rest →
      Lexes ((members.map memberText).flatMap ([','] ++ ·) ++ '\x7d' :: following)
        (memberTokens [.comma] members ++ ts) rest
  | [], _, _, _, _, h => h.written .closeObject trivial trivial
  | (name, value) :: members, following, _, ts, hvalid, h => by
    have htext :
        (((name, value) :: members).map memberText).flatMap ([','] ++ ·) ++ '\x7d' :: following =
        [','] ++ (stringText name ++ ([':'] ++ (text value ++
          ((members.map memberText).flatMap ([','] ++ ·) ++ '\x7d' :: following)))) := by
      simp [memberText]
    have htokens : memberTokens [.comma] ((name, value) :: members) ++ ts =
        .comma :: .string name :: .colon ::
          (value.tokens ++ (memberTokens [.comma] members ++ ts)) := by
      simp [memberTokens]
    simp only [memberTokens, List.nil_append, List.cons_append, List.forall_mem_cons,
      List.forall_mem_append] at hvalid
    have hmembers := lexes_members members hvalid.2.2.2.2 h
    have hvalue := lexes_text value hvalid.2.2.2.1 (endsNumber_parts rfl _) hmembers
    rw [htext, htokens]
    exact (hvalue.named name).written .comma trivial trivial

end

/-- **Reading back compact text**, whatever follows it. -/
theorem readFirst_text (v : Json) (hvalid : ∀ t ∈ v.tokens, t.Valid) (hdepth : v.depth ≤ maxDepth)
    {rest : List Char} (hends : endsNumber rest = true) :
    readFirst (text v ++ rest) = some (v, rest) := by
  have hlexes := lexes_text v hvalid hends (.nil rest)
  rw [List.append_nil] at hlexes
  exact readFirst_of_lexes hdepth hlexes

/-! ### Parts of a value -/

theorem valid_itemTokens {items : List Json} (hitems : ∀ v ∈ items, ∀ t ∈ v.tokens, t.Valid)
    {lead : List Token} (hlead : ∀ t ∈ lead, t.Valid) : ∀ t ∈ itemTokens lead items, t.Valid := by
  induction items generalizing lead with
  | nil => simp [itemTokens, Token.Valid]
  | cons item items ih =>
    obtain ⟨hitem, hrest⟩ := List.forall_mem_cons.mp hitems
    have hmore := @ih hrest [.comma] (by simp [Token.Valid])
    simp only [itemTokens, List.forall_mem_append]
    exact ⟨⟨hlead, hitem⟩, hmore⟩

theorem valid_memberTokens {members : List (String × Json)}
    (hmembers : ∀ m ∈ members, ∀ t ∈ m.2.tokens, t.Valid) {lead : List Token}
    (hlead : ∀ t ∈ lead, t.Valid) : ∀ t ∈ memberTokens lead members, t.Valid := by
  induction members generalizing lead with
  | nil => simp [memberTokens, Token.Valid]
  | cons member members ih =>
    obtain ⟨hmember, hrest⟩ := List.forall_mem_cons.mp hmembers
    have hmore := @ih hrest [.comma] (by simp [Token.Valid])
    simp only [memberTokens, List.forall_mem_append, List.forall_mem_cons]
    exact ⟨⟨hlead, trivial, trivial, hmember⟩, hmore⟩

theorem itemDepth_le {n : ℕ} {items : List Json} (h : ∀ v ∈ items, v.depth ≤ n) :
    itemDepth items ≤ n := by
  induction items with
  | nil => simp [itemDepth]
  | cons item items ih =>
    obtain ⟨hitem, hrest⟩ := List.forall_mem_cons.mp h
    have hmore := ih hrest
    simp only [itemDepth]
    omega

theorem memberDepth_le {n : ℕ} {members : List (String × Json)}
    (h : ∀ m ∈ members, m.2.depth ≤ n) : memberDepth members ≤ n := by
  induction members with
  | nil => simp [memberDepth]
  | cons member members ih =>
    obtain ⟨hmember, hrest⟩ := List.forall_mem_cons.mp h
    have hmore := ih hrest
    simp only [memberDepth]
    omega

theorem valid_number (i : ℤ) : (Token.number (Decimal.text i)).Valid := by
  have hliteral := isNumberLiteral_write i
  simpa [Token.Valid, Decimal.text] using hliteral

/-- The value reads back and stands on one line: its numbers are literals, it
is nested at most `n` deep, and its text holds no line feed. -/
structure Sound (n : ℕ) (v : Json) : Prop where
  valid : ∀ t ∈ v.tokens, t.Valid
  depth_le : v.depth ≤ n
  line : '\n' ∉ v.text

section Sound

variable {n : ℕ}

theorem sound_null : Json.null.Sound n :=
  ⟨by simp [tokens, Token.Valid], by simp [depth], by decide⟩

theorem sound_bool (b : Bool) : (Json.bool b).Sound n :=
  ⟨by simp [tokens, Token.Valid], by simp [depth], by cases b <;> decide⟩

theorem sound_number (i : ℤ) : (Json.number (Decimal.text i)).Sound n := by
  refine ⟨by simpa [tokens] using valid_number i, by simp [depth], ?_⟩
  rw [text, Decimal.text, String.toList_ofList]
  exact Decimal.feed_not_mem_write i

theorem sound_string (s : String) : (Json.string s).Sound n :=
  ⟨by simp [tokens, Token.Valid], by simp [depth], feed_not_mem_stringText s⟩

theorem itemTexts_eq (items : List Json) : itemTexts items = items.map text := by
  induction items with
  | nil => rfl
  | cons item items ih => rw [itemTexts, ih, List.map_cons]

theorem sound_array {items : List Json} (h : ∀ v ∈ items, v.Sound n) :
    (Json.array items).Sound (n + 1) where
  valid := by
    simp only [tokens, List.forall_mem_cons]
    exact ⟨trivial, valid_itemTokens (fun v hv => (h v hv).valid) (by simp)⟩
  depth_le := by
    have hdepth := itemDepth_le fun v hv => (h v hv).depth_le
    simp only [depth]
    omega
  line := by
    rw [text, itemTexts_eq]
    apply feed_not_mem_arrayText
    simp only [List.forall_mem_map]
    exact fun v hv => (h v hv).line

theorem sound_object {members : List (String × Json)} (h : ∀ m ∈ members, m.2.Sound n) :
    (Json.object members).Sound (n + 1) where
  valid := by
    simp only [tokens, List.forall_mem_cons]
    exact ⟨trivial, valid_memberTokens (fun m hm => (h m hm).valid) (by simp)⟩
  depth_le := by
    have hdepth := memberDepth_le fun m hm => (h m hm).depth_le
    simp only [depth]
    omega
  line := by
    rw [text, memberTexts_eq]
    apply feed_not_mem_objectText
    simp only [List.forall_mem_map]
    exact fun m hm => (h m hm).line

theorem Sound.readFirst_text {v : Json} (h : v.Sound n) (hn : n ≤ maxDepth) :
    readFirst v.text = some (v, []) := by
  have hread := Json.readFirst_text v h.valid (h.depth_le.trans hn) (show endsNumber [] = true from rfl)
  rwa [List.append_nil] at hread

end Sound

end Json

/-! ### Layouts -/

namespace Layout

open Json

/-- An entry as a member of an object. -/
def jsonMember (entry : String × Int64) : String × Json :=
  (entry.1, .number (Decimal.text entry.2.toInt))

/-- The layout as a JSON object, in the byte order of its keys. -/
def json (l : Layout) : Json := .object (l.byBytes.map jsonMember)

theorem sound_json (l : Layout) {n : ℕ} : l.json.Sound (n + 1) := by
  apply sound_object
  simp only [List.forall_mem_map]
  exact fun entry _ => sound_number entry.2.toInt

theorem layoutText_eq (l : Layout) : Value.layoutText l = text l.json := by
  have htext : memberText ∘ jsonMember = fun e => stringText e.1 ++ ':' :: distanceText e.2 := by
    funext e
    simp [memberText, jsonMember, text, distanceText, Decimal.text]
  rw [json, text_object, List.map_map, htext, Value.layoutText, objectText, List.map_map]
  rfl

/-- The result of an aggregation reads back as the layout. -/
theorem readFirst_layoutText (l : Layout) : readFirst (Value.layoutText l) = some (l.json, []) := by
  rw [layoutText_eq]
  exact (@sound_json l 0).readFirst_text (by decide)

/-- An entry on a line of its own. -/
theorem lexes_jsonLine (entry : String × Int64) {following rest : List Char} {ts : List Token}
    (hends : endsNumber following = true) (h : Lexes following ts rest) :
    Lexes ('\n' :: jsonLine entry ++ following)
      (.string entry.1 :: .colon :: .number (Decimal.text entry.2.toInt) :: ts) rest := by
  have hnumber := (h.written _ (valid_number entry.2.toInt) hends).spaced [' '] rfl
  have hline := (hnumber.named entry.1).spaced ['\n', ' ', ' '] rfl
  simpa [jsonLine, distanceText, Token.text, Decimal.text] using hline

theorem lexes_jsonLines (entries : List (String × Int64)) :
    Lexes ((entries.map jsonLine).flatMap ([',', '\n'] ++ ·) ++ ['\n', '\x7d', '\n'])
      (memberTokens [.comma] (entries.map jsonMember)) ['\n'] := by
  induction entries with
  | nil =>
    have hclose := (Lexes.nil ['\n']).written .closeObject trivial trivial
    exact hclose.spaced ['\n'] rfl
  | cons entry entries ih =>
    have hends : endsNumber ((entries.map jsonLine).flatMap ([',', '\n'] ++ ·) ++
        ['\n', '\x7d', '\n']) = true := by
      cases entries <;> rfl
    have hline := (lexes_jsonLine entry hends ih).written .comma trivial trivial
    simpa [memberTokens, jsonMember, tokens, Token.text] using hline

/-- The JSON document of a layout reads back as the layout. -/
theorem readFirst_jsonText (l : Layout) : readFirst l.jsonText = some (l.json, ['\n']) := by
  apply readFirst_of_lexes ((@sound_json l 0).depth_le.trans (by decide))
  unfold jsonText json
  cases l.byBytes with
  | nil =>
    have hclose := (Lexes.nil ['\n']).written .closeObject trivial trivial
    exact hclose.written .openObject trivial trivial
  | cons entry entries =>
    have hends : endsNumber ((entries.map jsonLine).flatMap ([',', '\n'] ++ ·) ++
        ['\n', '\x7d', '\n']) = true := by
      cases entries <;> rfl
    have hopen :=
      (lexes_jsonLine entry hends (lexes_jsonLines entries)).written .openObject trivial trivial
    simpa [intercalate_cons, tokens, memberTokens, jsonMember, Token.text] using hopen

end Layout
end OffsetGaps
