import ArithTemplate.Proofs.Json.Literal

set_option autoImplicit false

open ArithTemplate.Written (Stops)

namespace ArithTemplate.Json

-- The values of JSON: a number as it is written, a string as what it is read as.
inductive Value where
  | null
  | boolean (value : Bool)
  | number (n : Written.Number)
  | string (content : Text)
  | array (items : List Value)
  | object (members : List (Text × Value))

-- The grammar of the items of an array, from behind its opening bracket to behind its closing one.
inductive Items {Content : Type} (Shown : Text → Content → Prop) :
    Bool → Text → List Content → Text → Prop where
  | close (first : Bool) (blank rest : Text) (blanks : Blank blank) :
      Items Shown first (blank ++ ']' :: rest) [] rest
  | item (first : Bool) (front value s rest : Text) (content : Content) (items : List Content)
      (opening : Opening first front) (shown : Shown value content)
      (later : Items Shown false s items rest) :
      Items Shown first (front ++ (value ++ s)) (content :: items) rest

inductive Shows : Text → Value → Prop where
  | null : Shows ['n', 'u', 'l', 'l'] .null
  | yes : Shows ['t', 'r', 'u', 'e'] (.boolean true)
  | no : Shows ['f', 'a', 'l', 's', 'e'] (.boolean false)
  | number (n : Written.Number) (isNumber : IsNumber n) : Shows n.text (.number n)
  | string (spelling content : Text) (spelled : Spelled spelling content) :
      Shows ('"' :: (spelling ++ ['"'])) (.string content)
  | array (inside : Text) (items : List Value) (listed : Items Shows true inside items []) :
      Shows ('[' :: inside) (.array items)
  | object (inside : Text) (pairs : List (Text × Value)) (listed : Members Shows true inside pairs []) :
      Shows ('{' :: inside) (.object pairs)

def Sequence (s : Text) (items : List Value) : Prop :=
  ∃ before inside after, s = before ++ '[' :: inside ∧ Blank before ∧ Blank after ∧
    Items Shows true inside items after

-- A value is known by its first character.
def Leads : Value → Char → Prop
  | .null, c => c = 'n'
  | .boolean true, c => c = 't'
  | .boolean false, c => c = 'f'
  | .number _, c => c = '-' ∨ c.isDigit = true
  | .string _, c => c = '"'
  | .array _, c => c = '['
  | .object _, c => c = '{'

theorem items_stop (s rest : Text) (items : List Value) (listed : Items Shows false s items rest) :
    Stops s := by
  refine mark_stops s fun c head => ?_
  cases listed with
  | close _ blank _ blanks => exact (mark_head blank rest ']' blanks c head).imp_right (.inr ∘ .inr)
  | item _ front _ _ _ _ _ opening _ _ => exact (opening_head front _ opening c head).imp_right .inl

theorem members_extend {Content : Type} (Shown : Text → Content → Prop) (first : Bool) (s rest more : Text)
    (pairs : List (Text × Content)) (members : Members Shown first s pairs rest) :
    Members Shown first (s ++ more) pairs (rest ++ more) := by
  induction members with
  | close first blank rest blanks =>
      rw [List.append_assoc, List.cons_append]
      exact .close first blank _ blanks
  | member first front spelling name before after value s rest content pairs opening spelled
      beforeBlank afterBlank shown _ hypothesis =>
      simp only [List.append_assoc, List.cons_append]
      exact .member first front spelling name before after value _ _ content pairs opening spelled
        beforeBlank afterBlank shown hypothesis

theorem leads_visible (v : Value) (c : Char) (leads : Leads v c) : isBlank c = false ∧ c ≠ ']' := by
  cases v with
  | number n =>
      rcases leads with rfl | digit
      · exact ⟨rfl, by decide⟩
      · refine ⟨?_, by rintro rfl; cases digit⟩
        exact Bool.eq_false_iff.2 fun blank => Bool.eq_false_iff.1 (blank_no_digit c blank) digit
  | boolean b => cases b <;> (cases leads; exact ⟨rfl, by decide⟩)
  | _ => cases leads; exact ⟨rfl, by decide⟩

theorem leads_number (v : Value) (c : Char) (leads : Leads v c) :
    (c = '-' ∨ c.isDigit = true) ↔ ∃ n, v = .number n := by
  cases v with
  | number n => exact ⟨fun _ => ⟨n, rfl⟩, fun _ => leads⟩
  | boolean b => cases b <;> (cases leads; simp)
  | _ => cases leads; simp

theorem led_cases (v : Value) (c : Char) (leads : Leads v c) :
    (c = 'n' → v = .null) ∧ (c = '"' → ∃ content, v = .string content) ∧
      (c = '{' → ∃ pairs, v = .object pairs) := by
  cases v with
  | null =>
      cases leads
      exact ⟨fun _ => rfl, nofun, nofun⟩
  | boolean b => cases b <;> (cases leads; exact ⟨nofun, nofun, nofun⟩)
  | number n =>
      refine ⟨?_, ?_, ?_⟩ <;> (rintro rfl; exact absurd leads (by simp [Leads]))
  | string content =>
      cases leads
      exact ⟨nofun, fun _ => ⟨content, rfl⟩, nofun⟩
  | array items =>
      cases leads
      exact ⟨nofun, nofun, nofun⟩
  | object pairs =>
      cases leads
      exact ⟨nofun, nofun, fun _ => ⟨pairs, rfl⟩⟩

section Shown

variable (text : Text) (v : Value) (shown : Shows text v)

include shown

theorem value_leads : ∃ c tail, text = c :: tail ∧ Leads v c := by
  cases shown with
  | number n isNumber =>
      obtain ⟨c, tail, same, start⟩ := number_head n isNumber
      exact ⟨c, tail, same, start⟩
  | _ => exact ⟨_, _, rfl, rfl⟩

theorem value_led (s rest : Text) (c : Char) (same : text ++ s = c :: rest) : Leads v c := by
  obtain ⟨d, tail, rfl, leads⟩ := value_leads text v shown
  exact (List.cons.inj same).1 ▸ leads

theorem skip_value (blank s : Text) (blanks : Blank blank) :
    skipBlank (blank ++ (text ++ s)) = text ++ s := by
  obtain ⟨c, tail, rfl, leads⟩ := value_leads text v shown
  exact skip_to blank c _ blanks (leads_visible v c leads).1

theorem starts_number_iff (s : Text) : startsNumber (text ++ s) = true ↔ ∃ n, v = .number n := by
  obtain ⟨c, tail, rfl, leads⟩ := value_leads text v shown
  rw [← leads_number v c leads]
  simp [startsNumber]

end Shown

theorem number_shown (text : Text) (n : Written.Number) (shown : Shows text (.number n)) :
    text = n.text ∧ IsNumber n := by
  cases shown with
  | number _ isNumber => exact ⟨rfl, isNumber⟩

end ArithTemplate.Json
