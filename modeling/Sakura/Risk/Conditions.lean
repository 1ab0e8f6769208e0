/-
  What an accepted rule matches (platform/risk.go).

  A condition of texts is checked when the rule is saved and read again when it is evaluated, each time from
  the raw value.

  * `TextCondition`, `DeviceRule.text`, `RiskRule.text`: the conditions of the two families of rules;
  * `Sound`: such a condition says of every observation what its operator says, and none of an empty field;
  * `sound_iff`: the accepted rules whose condition is sound.
-/
import Mathlib.Data.List.DropRight
import Sakura.Risk.Rules

namespace Sakura.Risk

open Queue Settings

/-! ## Conditions -/

/-- A field of the observation, which is compared with a value. -/
structure TextCondition where
  field : PlaybackObservation → String
  operator : String
  value : String

def DeviceRule.text (rule : DeviceRule) : TextCondition where
  field := (observationField · rule.matchField.text)
  operator := rule.matchOperator.text
  value := rule.matchValue

/-- The condition of a rule of type `remote_ip` or `custom`. -/
def RiskRule.text (rule : RiskRule) : Option TextCondition :=
  let condition (field : PlaybackObservation → String) : TextCondition := {
    field
    operator := stringValue (rule.condition.get "operator")
    value := stringValue (rule.condition.get "value") }
  match rule.ruleType with
  | .remoteIP => some (condition (·.remoteIP))
  | .custom => some
      (condition (observationField · (stringValue (rule.condition.get "field"))))
  | _ => none

/-- The relation of two texts that an operator stands for. -/
def MatchOperator.Relates : MatchOperator → List Char → List Char → Prop
  | .exact, left, right => left = right
  | .contains, left, right => right <:+: left
  | .hasPrefix, left, right => right <+: left
  | .regex, _, _ => True

/-- The value is not empty, an empty field does not match, and any other does where its text stands in the
relation to that of the value. -/
structure Means (lower : Char → Char) (t : TextCondition) (operator : MatchOperator)
    (evaluates : PlaybackObservation → Bool) : Prop where
  value : folded lower t.value ≠ []
  empty : ∀ o, t.field o = "" → evaluates o = false
  relation : ∀ o, evaluates o = true ↔
    operator.Relates (folded lower (t.field o)) (folded lower t.value)

section

variable (lower : Char → Char) (regexp : Regexp)

/-- The evaluation of a text is its relation, and that of an expression has one to evaluate. -/
def Sound (t : TextCondition) (evaluates : PlaybackObservation → Bool) : Prop :=
  ∃ operator, MatchOperator.ofText t.operator = some operator ∧
    (operator = .regex → regexp.compiles ("(?i)" ++ t.value) = true) ∧
    (operator ≠ .regex → Means lower t operator evaluates)

/-! ## Evaluation -/

/-- The evaluation of a condition. -/
def TextCondition.evaluates (t : TextCondition) (o : PlaybackObservation) : Bool :=
  matchValue lower regexp (t.field o) t.operator t.value

/-- **A risk rule with a condition of texts is evaluated by it**, however many sessions there are. -/
theorem evaluateRiskRule_text {rule : RiskRule} {t : TextCondition} (ht : rule.text = some t)
    (n : Nat) : (evaluateRiskRule lower regexp rule · n) = t.evaluates lower regexp := by
  funext o
  unfold RiskRule.text at ht
  unfold evaluateRiskRule
  cases hk : rule.ruleType <;> rw [hk] at ht <;> cases ht <;> rfl

theorem DeviceRule.holds_text (rule : DeviceRule) :
    rule.holds lower regexp = rule.text.evaluates lower regexp := rfl

@[simp] theorem folded_empty : folded lower "" = [] := rfl

theorem folded_eq_nil {value : String} : folded lower value = [] ↔ trimSpace value = "" := by
  rw [folded, List.map_eq_nil_iff, String.toList_eq_nil_iff]

/-- The case of an operator that is no regular expression. -/
theorem matchValue_relates {operator : MatchOperator} (ho : operator ≠ .regex)
    {observed text expected : String} (ht : MatchOperator.ofText text = some operator) :
    matchValue lower regexp observed text expected = true ↔
      operator.Relates (folded lower observed) (folded lower expected) := by
  unfold matchValue
  rw [ht]
  cases operator with
  | exact | contains | hasPrefix => exact decide_eq_true_iff
  | regex => exact absurd rfl ho

/-- No text but the empty one relates to the empty one. -/
theorem MatchOperator.relates_nil {operator : MatchOperator} (ho : operator ≠ .regex)
    {right : List Char} : operator.Relates [] right ↔ right = [] := by
  cases operator with
  | exact => exact eq_comm
  | contains => exact List.infix_nil
  | hasPrefix => exact List.prefix_nil
  | regex => exact absurd rfl ho

theorem Regexp.compiles_fold {expression : String} (h : regexp.compiles expression = true) :
    regexp.compiles ("(?i)" ++ expression) = regexp.withinLimits true expression := by
  unfold Regexp.compiles at h ⊢
  rw [regexp.wellFormed_group, regexp.withinLimits_group, regexp.wellFormed_fold,
    (Bool.and_eq_true_iff.1 h).1, Bool.true_and]

variable {lower regexp}

/-- **A condition whose operator and value were accepted is sound** if the value has more than white
space, or the expression stays within the limits with its case folded; and only then. -/
theorem TextCondition.sound_iff {t : TextCondition}
    (h : validMatchOperator regexp t.operator t.value = true) :
    Sound lower regexp t (t.evaluates lower regexp) ↔
      if t.operator = MatchOperator.text .regex then regexp.withinLimits true t.value = true
      else trimSpace t.value ≠ "" := by
  unfold validMatchOperator at h
  cases ho : MatchOperator.ofText t.operator with
  | none => rw [ho] at h; cases h
  | some operator =>
    have htext : t.operator = operator.text := by
      have := List.find?_some ho
      simpa using (of_decide_eq_true this).symm
    have hiff : t.operator = MatchOperator.text .regex ↔ operator = .regex := by
      rw [htext]
      cases operator <;> decide
    rw [ho] at h
    unfold Sound
    by_cases hr : operator = .regex
    · subst hr
      rw [if_pos htext, ho]
      constructor
      · rintro ⟨_, ⟨⟩, hc, -⟩
        rw [← regexp.compiles_fold h]
        exact hc rfl
      · intro hl
        exact ⟨_, rfl, fun _ => (regexp.compiles_fold h).trans hl, fun hn => absurd rfl hn⟩
    · rw [if_neg (fun e => hr (hiff.1 e)), ho]
      constructor
      · rintro ⟨_, ⟨⟩, -, hm⟩
        exact fun e => (hm hr).value ((folded_eq_nil lower).2 e)
      · intro hv
        have hv' : folded lower t.value ≠ [] := fun e => hv ((folded_eq_nil lower).1 e)
        refine ⟨_, rfl, fun e => absurd e hr, fun _ => ⟨hv', fun o he => ?_, fun o => ?_⟩⟩
        · refine Bool.eq_false_iff.2 fun e => hv' ?_
          have := (matchValue_relates lower regexp hr ho).1 e
          rw [he, folded_empty] at this
          exact (MatchOperator.relates_nil hr).1 this
        · exact matchValue_relates lower regexp hr ho

/-! ## What is accepted -/

theorem RiskRuleBody.rule_valid {item : RiskRuleBody} {id : UUID} {revision : Int64}
    {rule : RiskRule} (h : item.rule lower regexp id revision = some rule) :
    validRiskCondition regexp rule.ruleType (some rule.condition) = true := by
  unfold RiskRuleBody.rule at h
  dsimp only at h
  split at h
  · split at h
    · cases h
      rename_i hc
      have hv := hc.2.2.2.2.2.2
      cases hi : item.condition with
      | none => rw [hi] at hv; cases hv
      | some c => rw [hi] at hv; exact hv
    · cases h
  · cases h

theorem RiskRule.stored_condition {rule stored : RiskRule} (h : rule.stored = .ok stored) :
    stored.condition = rule.condition ∧ stored.ruleType = rule.ruleType := by
  unfold RiskRule.stored at h
  split at h
  · split at h
    · cases h; exact ⟨rfl, rfl⟩
    · cases h
  · cases h

/-- What a saved risk rule went through. -/
theorem saveRiskRule_valid {ruleID : UUID} {id : Option UUID} {item : RiskRuleBody} {expected : Int64}
    {rules rules' : List RiskRule} {rule : RiskRule}
    (h : saveRiskRule lower regexp ruleID id item expected rules = .ok (rules', rule)) :
    validRiskCondition regexp rule.ruleType (some rule.condition) = true := by
  have key : ∀ {checked : RiskRule} {i v}, item.rule lower regexp i v = some checked →
      ∀ stored, checked.stored = .ok stored →
        validRiskCondition regexp stored.ruleType (some stored.condition) = true := by
    intro checked i v hc stored hs
    rw [(RiskRule.stored_condition hs).1, (RiskRule.stored_condition hs).2]
    exact RiskRuleBody.rule_valid hc
  unfold saveRiskRule at h
  cases id with
  | none =>
    dsimp only at h
    split at h
    · cases h
    · obtain ⟨stored, hs, h⟩ := except_bind_ok h
      split at h
      · cases h
      · cases h; exact key ‹_› _ hs
  | some id =>
    dsimp only at h
    split at h
    · cases h
    · split at h
      · cases h
      · split at h
        · cases h
        · obtain ⟨stored, hs, h⟩ := except_bind_ok h
          split at h
          · cases h
          · cases h; exact key ‹_› _ hs

theorem RiskRule.text_valid {rule : RiskRule} {t : TextCondition} (ht : rule.text = some t)
    (h : validRiskCondition regexp rule.ruleType (some rule.condition) = true) :
    validMatchOperator regexp t.operator t.value = true := by
  unfold RiskRule.text at ht
  cases hk : rule.ruleType <;> rw [hk] at ht h <;> cases ht
  · exact (Bool.and_eq_true_iff.1 h).2
  · exact (Bool.and_eq_true_iff.1 h).2

/-- The value and the operator of a valid device rule. -/
structure DeviceRule.Valid (regexp : Regexp) (rule : DeviceRule) : Prop where
  value : ∃ raw, rule.matchValue = trimSpace raw ∧ trimSpace raw ≠ ""
  operator : rule.matchOperator = .regex → regexp.compiles rule.matchValue = true

theorem DeviceRuleBody.rule_valid {item : DeviceRuleBody} {id : UUID} {revision : Int64}
    {builtIn : Bool} {rule : DeviceRule} (h : item.rule regexp id revision builtIn = some rule) :
    rule.Valid regexp := by
  unfold DeviceRuleBody.rule at h
  dsimp only at h
  split at h
  · split at h
    · cases h
      rename_i hc
      exact ⟨⟨item.matchValue, rfl, hc.2.2.1⟩, hc.2.2.2.2.2.2.2⟩
    · cases h
  · cases h

theorem DeviceRule.stored_valid {rule stored : DeviceRule} (h : rule.stored = .ok stored)
    (hv : rule.Valid regexp) : stored.Valid regexp := by
  obtain ⟨description, -, h⟩ := except_bind_ok h
  split at h
  · cases h; exact ⟨hv.value, hv.operator⟩
  · cases h

theorem saveDeviceRule_valid {ruleID : UUID} {id : Option UUID} {item : DeviceRuleBody}
    {expected : Int64} {rules rules' : List DeviceRule} {rule : DeviceRule}
    (h : saveDeviceRule regexp ruleID id item expected rules = .ok (rules', rule)) :
    rule.Valid regexp := by
  unfold saveDeviceRule at h
  cases id with
  | none =>
    dsimp only at h
    split at h
    · cases h
    · obtain ⟨stored, hs, h⟩ := except_bind_ok h
      split at h
      · cases h
      · cases h; exact DeviceRule.stored_valid hs (DeviceRuleBody.rule_valid ‹_›)
  | some id =>
    dsimp only at h
    split at h
    · cases h
    · split at h
      · cases h
      · split at h
        · cases h
        · split at h
          · cases h
          · obtain ⟨stored, hs, h⟩ := except_bind_ok h
            cases h
            have hv := DeviceRuleBody.rule_valid ‹_›
            exact DeviceRule.stored_valid hs ⟨hv.value, hv.operator⟩

theorem DeviceRule.Valid.value_ne {rule : DeviceRule} (hv : rule.Valid regexp) :
    trimSpace rule.matchValue ≠ "" := by
  obtain ⟨raw, hraw, hne⟩ := hv.value
  rwa [hraw, trimSpace_trimSpace]

theorem DeviceRule.Valid.valid {rule : DeviceRule} (hv : rule.Valid regexp) :
    validMatchOperator regexp rule.text.operator rule.text.value = true := by
  show validMatchOperator regexp rule.matchOperator.text rule.matchValue = true
  unfold validMatchOperator
  rw [MatchOperator.ofText_text]
  split
  · rename_i ho
    exact hv.operator (Option.some.inj ho)
  · rfl
  · contradiction

end

/-! ## The accepted rules -/

/-- **Which accepted rules mean what they say**: a risk rule whose value is not white space alone, and any
device rule; of both, a regular expression must stay within the limits once its case is folded. -/
theorem accepted_sound_iff (lower : Char → Char) (regexp : Regexp) :
    (∀ {ruleID : UUID} {id : Option UUID} {item : RiskRuleBody} {expected : Int64}
      {rules rules' : List RiskRule} {rule : RiskRule},
      saveRiskRule lower regexp ruleID id item expected rules = .ok (rules', rule) →
      ∀ {t : TextCondition}, rule.text = some t → ∀ concurrent : Nat,
      (Sound lower regexp t (evaluateRiskRule lower regexp rule · concurrent) ↔
        if t.operator = "regex" then regexp.withinLimits true t.value = true
        else trimSpace t.value ≠ "")) ∧
    (∀ {ruleID : UUID} {id : Option UUID} {item : DeviceRuleBody} {expected : Int64}
      {rules rules' : List DeviceRule} {rule : DeviceRule},
      saveDeviceRule regexp ruleID id item expected rules = .ok (rules', rule) →
      (Sound lower regexp rule.text (rule.holds lower regexp) ↔
        (rule.matchOperator = .regex → regexp.withinLimits true rule.matchValue = true))) := by
  constructor
  · intro ruleID id item expected rules rules' rule h t ht concurrent
    rw [evaluateRiskRule_text lower regexp ht]
    exact TextCondition.sound_iff (RiskRule.text_valid ht (saveRiskRule_valid h))
  · intro ruleID id item expected rules rules' rule h
    have hv := saveDeviceRule_valid h
    rw [DeviceRule.holds_text, TextCondition.sound_iff hv.valid]
    show (if rule.matchOperator.text = _ then regexp.withinLimits true rule.matchValue = true
      else trimSpace rule.matchValue ≠ "") ↔ _
    by_cases hr : rule.matchOperator = .regex
    · rw [if_pos (congrArg _ hr), forall_prop_of_true hr]
    · have htext : rule.matchOperator.text ≠ MatchOperator.text .regex := fun e => hr (by
        have := congrArg MatchOperator.ofText e
        rwa [MatchOperator.ofText_text, MatchOperator.ofText_text, Option.some.injEq] at this)
      rw [if_neg htext]
      exact ⟨fun _ e => absurd e hr, fun _ => hv.value_ne⟩

/-- Expressions with as many opening parentheses as closing ones. -/
def balanced : Regexp where
  wellFormed _ expression := expression.toList.count '(' = expression.toList.count ')'
  withinLimits _ _ := true
  matchString expression observed :=
    (expression.toList.drop 4).map lowerChar <:+: observed.toList.map lowerChar
  wellFormed_group expression := by
    rw [String.toList_append, List.count_append, List.count_append]
    simp
  withinLimits_group _ := rfl
  wellFormed_fold _ := rfl

/-- A rule of type `custom` for the name of the client. -/
def clientBody (operator value : String) : RiskRuleBody where
  code := "client"
  name := "client"
  ruleType := "custom"
  condition := some
    [("field", .string "client_name"), ("operator", .string operator), ("value", .string value)]
  severity := "high"
  action := "disable_user"
  observationMode := false

def clientRule (operator value : String) : RiskRule where
  id := idOf '1'
  code := "client"
  name := "client"
  ruleType := .custom
  condition := ((clientBody operator value).condition).getD []
  severity := .high
  action := some .disableUser
  observationMode := false

theorem clientRule_text (operator value : String) : (clientRule operator value).text =
    some ⟨(observationField · "client_name"), operator, value⟩ := by
  simp [RiskRule.text, clientRule, clientBody, Object.get, List.lookup_cons, stringValue]

theorem accepted_sound_client :
    saveRiskRule lowerChar balanced (idOf '1') none (clientBody "contains" " Web") 0 [] =
      .ok ([clientRule "contains" " Web"], clientRule "contains" " Web") ∧
    ∀ t, (clientRule "contains" " Web").text = some t →
      Sound lowerChar balanced t (evaluateRiskRule lowerChar balanced (clientRule "contains" " Web") · 1)
        := by
  have h : saveRiskRule lowerChar balanced (idOf '1') none (clientBody "contains" " Web") 0 [] =
      .ok ([clientRule "contains" " Web"], clientRule "contains" " Web") := by decide +kernel
  refine ⟨h, fun t ht => ((accepted_sound_iff lowerChar balanced).1 h ht 1).2 ?_⟩
  rw [clientRule_text] at ht
  obtain rfl := Option.some.inj ht
  decide +kernel

/-- **A value of white space alone is accepted, and the rule holds of every session**, also of one
without a client name, where it disables its user. -/
theorem blank_value_holds :
    saveRiskRule lowerChar balanced (idOf '1') none (clientBody "contains" " ") 0 [] =
      .ok ([clientRule "contains" " "], clientRule "contains" " ") ∧
    ∀ o concurrent,
      evaluateRiskRule lowerChar balanced (clientRule "contains" " ") o concurrent = true := by
  refine ⟨by decide +kernel, fun o concurrent => ?_⟩
  have hop : MatchOperator.ofText "contains" = some .contains := by decide
  have heq := congrFun (evaluateRiskRule_text lowerChar balanced (clientRule_text "contains" " ")
    concurrent) o
  have hblank : folded lowerChar " " = [] := by decide +kernel
  rw [heq]
  refine (matchValue_relates lowerChar balanced (show MatchOperator.contains ≠ .regex by decide)
    hop).2 ?_
  show folded lowerChar " " <:+: _
  rw [hblank]
  exact List.nil_infix

end Sakura.Risk
