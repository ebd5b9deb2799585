import SnippetAudit.Proofs.Schema.Shown
import SnippetAudit.Schema.Validator

/-!
# Where failures come from

A keyword fails by itself, or it hands on what subschemas say: about the value once more, about a part of it, or
about the name of a member. By itself it says that a required member is missing, that members are not allowed, or
something that no one asks for; in none of these does the message start like those for undeclared and missing
attributes. Judging breaks down under a keyword where a subschema for the same value does, where a reference does not
lead to a schema, or on the way through the parts of the value. A property of all failures is then a matter of these
few cases, and of an induction on the budget.

## What this module delivers

- `InPlace`: the subschemas by which a keyword judges the same value once more;
- `Arises`: the ways in which a failure comes about;
- `allArise_bind`: keywords that ask subschemas first;
- `arises_of_mem_keywords`: the failures of every keyword come about so;
- `failuresWithin_cases`: the failures of a schema are those of its keywords.
-/

set_option autoImplicit false

namespace SnippetAudit.Schema

/-- The keywords whose argument is a reference. -/
def referenceKeywords : List String := ["$ref", "$dynamicRef"]

/-- The keywords whose argument has subschemas for the same value as its items. -/
def combiningKeywords : List String := ["allOf", "anyOf", "oneOf"]

/-- A keyword that stands beside others in a schema judges the same value once more by the subschema, whatever the value
is: the subschema stands in the argument or beside the keyword, or the argument leads to it. -/
inductive InPlace (root : Value) (siblings : Members Value) : String → Value → Value → Prop where
  | item {keyword : String} {arg schema : Value} (hkeyword : keyword ∈ combiningKeywords)
      (hitem : schema ∈ itemsOf arg) : InPlace root siblings keyword arg schema
  | negated {arg : Value} : InPlace root siblings "not" arg arg
  | condition {arg : Value} : InPlace root siblings "if" arg arg
  | branch {name : String} {arg schema : Value} (hbranch : siblings.get? name = some schema)
      (hname : name = "then" ∨ name = "else") : InPlace root siblings "if" arg schema
  | target {keyword reference : String} {arg schema : Value} (hkeyword : keyword ∈ referenceKeywords)
      (harg : arg.string? = some reference) (htarget : resolve root reference = .ok schema) :
      InPlace root siblings keyword arg schema

/-- The argument is a reference that leads to a schema. -/
def LeadsToSchema (root : Value) (refusal? : Value → Option String) (arg : Value) : Prop :=
  ∃ reference schema, arg.string? = some reference ∧ resolve root reference = .ok schema ∧ refusal? schema = none

/-- The failure of a value comes about under a keyword of the given name, with the given argument. Strings have no
parts, and neither have expressions. -/
inductive Arises (keyword : String) (scope : Scope) (arg v : Value) : Failure → Prop where
  /-- By no rule that matters to others. -/
  | here {message : String} (hmessage : StartsApart message) : Arises keyword scope arg v (.here message)
  /-- A required member is missing. -/
  | missing {members : Members Value} {names : List Value} {name : Value} {message : String}
      (hv : v = .object members) (hname : name ∈ names) (hmissing : hasMember members name = false)
      (hmessage : StartsApart message) : Arises keyword scope arg v ⟨[], .required names, message⟩
  /-- Members are not allowed. -/
  | closed {message : String} (hmessage : StartsApart message) :
      Arises keyword scope arg v ⟨[], .additionalProperties, message⟩
  /-- A subschema judges the value once more. -/
  | whole {schema : Value} {f : Failure} (hschema : InPlace scope.root scope.siblings keyword arg schema)
      (hf : f ∈ scope.judge schema v) : Arises keyword scope arg v f
  /-- A subschema judges an object once more, because of its members. -/
  | dependent {schema : Value} {f : Failure} (hv : v.string? = none) (hf : f ∈ scope.judge schema v) :
      Arises keyword scope arg v f
  /-- A subschema judges the name of a member. -/
  | name {name : String} {f : Failure} (hv : v.string? = none) (hf : f ∈ scope.judge arg (.str name)) :
      Arises keyword scope arg v f
  /-- A subschema that is true or false speaks of the value, by a part of it. -/
  | flag {b : Bool} {part : Value} {f : Failure} (hv : v.string? = none) (hf : f ∈ scope.judge (.bool b) part) :
      Arises keyword scope arg v f
  /-- A subschema judges a part. -/
  | part {schema part : Value} {step : PathStep} {f : Failure} (hv : v.string? = none)
      (hf : f ∈ scope.judge schema part) : Arises keyword scope arg v (f.under step)
  /-- Judging the value once more breaks down. -/
  | stuck {schema : Value} {f : Failure} {cause : Breakdown}
      (hschema : InPlace scope.root scope.siblings keyword arg schema) (hf : f ∈ scope.judge schema v)
      (hcause : f.breakdown? = some cause) : Arises keyword scope arg v (.broken cause)
  /-- A reference does not lead to a schema. -/
  | lost {cause : Breakdown} (hkeyword : keyword ∈ referenceKeywords)
      (hlost : ¬ LeadsToSchema scope.root scope.manner.refusal? arg) : Arises keyword scope arg v (.broken cause)
  /-- Judging breaks down on the way through the parts, or by the number that the value is. -/
  | inside {cause : Breakdown} (hv : v.string? = none) : Arises keyword scope arg v (.broken cause)

/-- All failures come about under the keyword. -/
def AllArise (keyword : String) (scope : Scope) (arg v : Value) (fs : List Failure) : Prop :=
  ∀ f ∈ fs, Arises keyword scope arg v f

section Keywords

variable {keyword : String} {scope : Scope} {arg v : Value}

@[simp]
theorem allArise_nil : AllArise keyword scope arg v [] := fun _ hf => absurd hf List.not_mem_nil

theorem allArise_singleton {f : Failure} (h : Arises keyword scope arg v f) : AllArise keyword scope arg v [f] :=
  List.forall_mem_singleton.2 h

theorem allArise_here {message : String} (h : StartsApart message) : AllArise keyword scope arg v [.here message] :=
  allArise_singleton (.here h)

/-- A message that shows a value first. -/
@[simp]
theorem allArise_shown (w : Value) (rest : String) : AllArise keyword scope arg v [.here (shown w ++ rest)] :=
  allArise_here ((startsApart_text w).append rest)

@[simp]
theorem allArise_ite {c : Prop} [Decidable c] {fs gs : List Failure} (hfs : AllArise keyword scope arg v fs)
    (hgs : AllArise keyword scope arg v gs) : AllArise keyword scope arg v (if c then fs else gs) := by
  split
  · exact hfs
  · exact hgs

theorem allArise_append {fs gs : List Failure} (hfs : AllArise keyword scope arg v fs)
    (hgs : AllArise keyword scope arg v gs) : AllArise keyword scope arg v (fs ++ gs) :=
  List.forall_mem_append.2 ⟨hfs, hgs⟩

theorem allArise_flatMap {α : Type} {xs : List α} {judge : α → List Failure}
    (h : ∀ x ∈ xs, AllArise keyword scope arg v (judge x)) : AllArise keyword scope arg v (xs.flatMap judge) := by
  intro f hf
  obtain ⟨x, hx, hf⟩ := List.mem_flatMap.1 hf
  exact h x hx f hf

theorem allArise_map {α : Type} {xs : List α} {tell : α → Failure} (h : ∀ x ∈ xs, Arises keyword scope arg v (tell x)) :
    AllArise keyword scope arg v (xs.map tell) :=
  List.forall_mem_map.2 h

/-- The failures of a part come about by the subschema that judges it. -/
theorem allArise_judgePart (hv : v.string? = none) (step : PathStep) (schema part : Value) :
    AllArise keyword scope arg v (scope.judgePart step schema part) := by
  rw [Scope.judgePart.eq_def]
  split
  · exact fun f hf => .flag hv hf
  · exact allArise_map fun f hf => .part hv hf

/-! ## Asking subschemas first -/

theorem exists_breakdown_of_accepts {schema w : Value} {cause : Breakdown}
    (h : scope.accepts schema w = .error cause) : ∃ f ∈ scope.judge schema w, f.breakdown? = some cause := by
  rw [Scope.accepts.eq_def] at h
  split at h
  · cases h
  · next f rest hjudge =>
    split at h
    · next hcause =>
      obtain rfl := Except.error.inj h
      exact ⟨f, hjudge ▸ List.mem_cons_self, hcause⟩
    · cases h

theorem exists_breakdown_of_allFailures {schema w : Value} {cause : Breakdown}
    (h : scope.allFailures schema w = .error cause) : ∃ f ∈ scope.judge schema w, f.breakdown? = some cause := by
  rw [Scope.allFailures.eq_def] at h
  split at h
  · next hcause =>
    obtain rfl := Except.error.inj h
    exact List.exists_of_findSome?_eq_some hcause
  · cases h

/-- Looking for a schema that the value meets breaks down where one of the schemas does. -/
theorem exists_breakdown_of_firstMet? {w : Value} {cause : Breakdown} {schemas : List Value}
    (h : firstMet? scope w schemas = .error cause) :
    ∃ schema ∈ schemas, ∃ f ∈ scope.judge schema w, f.breakdown? = some cause := by
  induction schemas with
  | nil => cases h
  | cons schema rest ih =>
    rw [firstMet?] at h
    cases hfailures : scope.allFailures schema w with
    | error other =>
      rw [hfailures] at h
      obtain rfl := Except.error.inj h
      exact ⟨schema, List.mem_cons_self, exists_breakdown_of_allFailures hfailures⟩
    | ok fs =>
      rw [hfailures] at h
      cases fs with
      | nil => cases h
      | cons f more =>
        obtain ⟨other, hother, hf⟩ := ih h
        exact ⟨other, List.mem_cons_of_mem schema hother, hf⟩

/-- Looking for the schemas that the value meets breaks down where one of the schemas does. -/
theorem exists_breakdown_of_allMet {w : Value} {cause : Breakdown} {schemas : List Value}
    (h : allMet scope w schemas = .error cause) :
    ∃ schema ∈ schemas, ∃ f ∈ scope.judge schema w, f.breakdown? = some cause := by
  induction schemas with
  | nil => cases h
  | cons schema rest ih =>
    rw [allMet] at h
    cases haccepts : scope.accepts schema w with
    | error other =>
      rw [haccepts] at h
      obtain rfl := Except.error.inj h
      exact ⟨schema, List.mem_cons_self, exists_breakdown_of_accepts haccepts⟩
    | ok isMet =>
      rw [haccepts] at h
      cases hrest : allMet scope w rest with
      | error other =>
        rw [hrest] at h
        obtain rfl := Except.error.inj h
        obtain ⟨other, hother, hf⟩ := ih hrest
        exact ⟨other, List.mem_cons_of_mem schema hother, hf⟩
      | ok more => rw [hrest] at h; cases h

/-- The first schema that the value meets is one of the schemas, and so are those behind it. -/
theorem mem_of_firstMet? {w first : Value} {rest schemas : List Value}
    (h : firstMet? scope w schemas = .ok (some (first, rest))) : ∀ schema ∈ rest, schema ∈ schemas := by
  induction schemas with
  | nil => cases h
  | cons schema more ih =>
    rw [firstMet?] at h
    cases hfailures : scope.allFailures schema w with
    | error other => rw [hfailures] at h; cases h
    | ok fs =>
      rw [hfailures] at h
      cases fs with
      | nil =>
        obtain ⟨rfl, rfl⟩ := Prod.mk.inj (Option.some.inj (Except.ok.inj h))
        exact fun other hother => List.mem_cons_of_mem _ hother
      | cons f others => exact fun other hother => List.mem_cons_of_mem schema (ih h other hother)

/-- Where nothing more is asked, the failures are those that have been found out. -/
theorem allArise_pure {fs : List Failure} (h : AllArise keyword scope arg v fs) :
    AllArise keyword scope arg v (settle (pure fs)) := h

/-- A keyword that asks something first breaks down with it, or goes on with the answer. -/
theorem allArise_bind {α : Type} {x : Except Breakdown α} {tell : α → Except Breakdown (List Failure)}
    (herror : ∀ cause, x = .error cause → Arises keyword scope arg v (.broken cause))
    (hok : ∀ a, x = .ok a → AllArise keyword scope arg v (settle (tell a))) :
    AllArise keyword scope arg v (settle (x >>= tell)) := by
  cases x with
  | error cause => exact allArise_singleton (herror cause rfl)
  | ok a => exact hok a rfl

/-- A keyword that asks about parts may break down there. -/
theorem allArise_bind_inside {α : Type} (hv : v.string? = none) {x : Except Breakdown α}
    {tell : α → Except Breakdown (List Failure)} (hok : ∀ a, AllArise keyword scope arg v (settle (tell a))) :
    AllArise keyword scope arg v (settle (x >>= tell)) :=
  allArise_bind (fun _ _ => .inside hv) fun a _ => hok a

/-! ## Keywords of one value -/

theorem allArise_typeKeyword : AllArise keyword scope arg v (typeKeyword scope arg v) := by
  simp [typeKeyword, String.append_assoc]

theorem allArise_enumKeyword : AllArise keyword scope arg v (enumKeyword scope arg v) := by
  simp [enumKeyword, String.append_assoc]

/-- The expected value comes first. -/
theorem allArise_constKeyword : AllArise keyword scope arg v (constKeyword scope arg v) := by
  simp [constKeyword]

theorem allArise_boundKeyword (failing : List Ordering) (wording : String) :
    AllArise keyword scope arg v (boundKeyword failing wording scope arg v) := by
  unfold boundKeyword
  split <;> simp [String.append_assoc]

theorem string?_eq_none_of_isNumber (h : v.isNumber = true) : v.string? = none := by
  cases v <;> first | rfl | exact absurd h Bool.false_ne_true

/-- Only numbers are multiples of others. -/
theorem allArise_multipleOf : AllArise keyword scope arg v (multipleOf scope arg v) := by
  unfold multipleOf
  split
  · next hnumber =>
    refine allArise_bind_inside (string?_eq_none_of_isNumber hnumber) fun isMultiple => ?_
    split
    · exact allArise_pure allArise_nil
    · exact allArise_pure (by simp [String.append_assoc])
  · exact allArise_nil

@[simp]
theorem allArise_lowerCount (count : Nat) (wording : String) :
    AllArise keyword scope arg v (lowerCount v arg count wording) := by
  simp [lowerCount]

@[simp]
theorem allArise_upperCount (count : Nat) (wording : String) :
    AllArise keyword scope arg v (upperCount v arg count wording) := by
  simp [upperCount]

theorem allArise_minLength : AllArise keyword scope arg v (minLength scope arg v) := by
  unfold minLength
  split <;> simp

theorem allArise_maxLength : AllArise keyword scope arg v (maxLength scope arg v) := by
  unfold maxLength
  split <;> simp

theorem allArise_pattern : AllArise keyword scope arg v (pattern scope arg v) := by
  unfold pattern
  split <;> simp [String.append_assoc]

theorem allArise_format : AllArise keyword scope arg v (format scope arg v) := by
  unfold format
  split <;> simp [String.append_assoc]

theorem allArise_minItems : AllArise keyword scope arg v (minItems scope arg v) := by
  unfold minItems
  split <;> simp

theorem allArise_maxItems : AllArise keyword scope arg v (maxItems scope arg v) := by
  unfold maxItems
  split <;> simp

theorem allArise_uniqueItems : AllArise keyword scope arg v (uniqueItems scope arg v) := by
  unfold uniqueItems
  split <;> simp

theorem allArise_minProperties : AllArise keyword scope arg v (minProperties scope arg v) := by
  unfold minProperties
  split <;> simp

theorem allArise_maxProperties : AllArise keyword scope arg v (maxProperties scope arg v) := by
  unfold maxProperties
  split <;> simp

/-- The failures name the members that are missing from the object itself. -/
theorem allArise_required : AllArise keyword scope arg v (required scope arg v) := by
  unfold required
  split
  · refine allArise_map fun name hname => ?_
    obtain ⟨hlisted, hmissing⟩ := List.mem_filter.1 hname
    exact .missing rfl hlisted (by simpa using hmissing) ((startsApart_text name).append _)
  · exact allArise_nil

theorem allArise_dependentRequired : AllArise keyword scope arg v (dependentRequired scope arg v) := by
  unfold dependentRequired
  split
  · refine allArise_flatMap fun pair _ => allArise_map fun other _ => .here ?_
    exact ((startsApart_text other).append _).append _
  · exact allArise_nil

/-! ## Keywords for parts -/

theorem allArise_properties : AllArise keyword scope arg v (properties scope arg v) := by
  unfold properties
  split
  · refine allArise_flatMap fun pair hpair => ?_
    dsimp only
    split
    · exact allArise_judgePart rfl _ _ _
    · exact allArise_nil
  · exact allArise_nil

theorem allArise_patternProperties : AllArise keyword scope arg v (patternProperties scope arg v) := by
  unfold patternProperties
  split
  · refine allArise_flatMap fun pair hpair => allArise_flatMap fun member _ => ?_
    exact allArise_judgePart rfl _ _ _
  · exact allArise_nil

theorem allArise_judgeExtras (hv : v.string? = none) (members : Members Value) (extras : List String) :
    AllArise keyword scope arg v (judgeExtras scope arg members extras) := by
  unfold judgeExtras
  split
  · exact allArise_flatMap fun name _ => allArise_judgePart hv _ _ _
  · exact allArise_ite allArise_nil (allArise_singleton (.closed (startsApart_additionalMessage _ _)))
  · exact allArise_nil

theorem allArise_additionalProperties : AllArise keyword scope arg v (additionalProperties scope arg v) := by
  unfold additionalProperties
  split
  · split
    · exact allArise_singleton (.inside rfl)
    · exact allArise_judgeExtras rfl _ _
  · exact allArise_nil

theorem allArise_propertyNames : AllArise keyword scope arg v (propertyNames scope arg v) := by
  unfold propertyNames
  split
  · exact allArise_flatMap fun name _ f hf => .name rfl hf
  · exact allArise_nil

theorem allArise_judgeItems (hv : v.string? = none) (schema : Value) (all : List Value) :
    ∀ first, AllArise keyword scope arg v (judgeItems scope schema first all) := by
  induction all with
  | nil => exact fun _ => allArise_nil
  | cons item rest ih => exact fun first => allArise_append (allArise_judgePart hv _ _ _) (ih (first + 1))

theorem allArise_judgePairs (hv : v.string? = none) (first : Nat) (all schemas : List Value) :
    AllArise keyword scope arg v (judgePairs scope first all schemas) := by
  fun_induction judgePairs scope first all schemas with
  | case1 first item rest schema more ih => exact allArise_append (allArise_judgePart hv _ _ _) ih
  | case2 => exact allArise_nil

theorem allArise_prefixItems : AllArise keyword scope arg v (prefixItems scope arg v) := by
  unfold prefixItems
  split
  · exact allArise_judgePairs rfl _ _ _
  · exact allArise_nil

theorem allArise_items : AllArise keyword scope arg v (items scope arg v) := by
  have hexpected : StartsApart "Expected at most " := ⟨'E', rfl, by decide⟩
  unfold items
  split
  · dsimp only
    split
    · exact allArise_nil
    · split
      · refine allArise_here ?_
        simp only [String.append_assoc]
        exact hexpected.append _
      · exact allArise_judgeItems rfl _ _ _
  · exact allArise_nil

theorem allArise_contains : AllArise keyword scope arg v (contains scope arg v) := by
  have hmany : StartsApart "Too many items match the given schema (expected at most " := ⟨'T', rfl, by decide⟩
  have hfew : StartsApart "Too few items match the given schema (expected at least " := ⟨'T', rfl, by decide⟩
  unfold contains
  split
  · refine allArise_bind_inside rfl fun count => ?_
    split
    · exact allArise_pure (allArise_here ((hmany.append _).append _))
    · split
      · split
        · exact allArise_pure (allArise_shown _ _)
        · refine allArise_pure (allArise_here ?_)
          simp only [String.append_assoc]
          exact hfew.append _
      · exact allArise_pure allArise_nil
  · exact allArise_nil

theorem allArise_unevaluatedProperties : AllArise keyword scope arg v (unevaluatedProperties scope arg v) := by
  have hallowed : StartsApart "Unevaluated properties are not allowed (" := ⟨'U', rfl, by decide⟩
  have hvalid : StartsApart "Unevaluated properties are not valid under the given schema (" := ⟨'U', rfl, by decide⟩
  unfold unevaluatedProperties
  split
  · refine allArise_bind_inside rfl fun known => allArise_bind_inside rfl fun failing => ?_
    split
    · exact allArise_pure allArise_nil
    · split
      · exact allArise_pure (allArise_here ((hallowed.append _).append _))
      · exact allArise_pure (allArise_here ((hvalid.append _).append _))
  · exact allArise_nil

theorem allArise_unevaluatedItems : AllArise keyword scope arg v (unevaluatedItems scope arg v) := by
  have hallowed : StartsApart "Unevaluated items are not allowed (" := ⟨'U', rfl, by decide⟩
  unfold unevaluatedItems
  split
  · refine allArise_bind_inside rfl fun known => ?_
    split
    · exact allArise_pure allArise_nil
    · exact allArise_pure (allArise_here (((hallowed.append _).append _).append _))
  · exact allArise_nil

/-! ## Keywords for the same value -/

theorem allArise_allOf : AllArise "allOf" scope arg v (allOf scope arg v) :=
  allArise_flatMap fun _ hschema _ hf => .whole (.item (by decide) hschema) hf

theorem allArise_anyOf : AllArise "anyOf" scope arg v (anyOf scope arg v) := by
  refine allArise_bind (fun cause hcause => ?_) fun met _ => ?_
  · obtain ⟨schema, hschema, f, hf, hbroken⟩ := exists_breakdown_of_firstMet? hcause
    exact .stuck (.item (by decide) hschema) hf hbroken
  · split
    · exact allArise_pure allArise_nil
    · exact allArise_pure (by simp [noneFits])

theorem allArise_oneOf : AllArise "oneOf" scope arg v (oneOf scope arg v) := by
  refine allArise_bind (fun cause hcause => ?_) fun met hmet => ?_
  · obtain ⟨schema, hschema, f, hf, hbroken⟩ := exists_breakdown_of_firstMet? hcause
    exact .stuck (.item (by decide) hschema) hf hbroken
  · split
    · exact allArise_pure (by simp [noneFits])
    · next first rest =>
      refine allArise_bind (fun cause hcause => ?_) fun more _ => ?_
      · obtain ⟨schema, hschema, f, hf, hbroken⟩ := exists_breakdown_of_allMet hcause
        exact .stuck (.item (by decide) (mem_of_firstMet? hmet schema hschema)) hf hbroken
      · split
        · exact allArise_pure allArise_nil
        · exact allArise_pure (by simp [String.append_assoc])

theorem allArise_negation : AllArise "not" scope arg v (negation scope arg v) := by
  refine allArise_bind (fun cause hcause => ?_) fun met _ => ?_
  · obtain ⟨f, hf, hbroken⟩ := exists_breakdown_of_accepts hcause
    exact .stuck .negated hf hbroken
  · split
    · exact allArise_pure (by simp [String.append_assoc])
    · exact allArise_pure allArise_nil

/-- The branches stand beside the condition. -/
theorem allArise_condition : AllArise "if" scope arg v (condition scope arg v) := by
  refine allArise_bind (fun cause hcause => ?_) fun met _ => ?_
  · obtain ⟨f, hf, hbroken⟩ := exists_breakdown_of_accepts hcause
    exact .stuck .condition hf hbroken
  · dsimp only
    split
    · next schema hschema =>
      exact allArise_pure fun f hf => .whole (.branch hschema (by cases met <;> simp)) hf
    · exact allArise_pure allArise_nil

theorem allArise_dependentSchemas : AllArise keyword scope arg v (dependentSchemas scope arg v) := by
  unfold dependentSchemas
  split
  · exact allArise_flatMap fun pair hpair f hf => .dependent rfl hf
  · exact allArise_nil

theorem eq_ok_of_target {schema : Value} (h : target scope arg = .ok schema) :
    ∃ reference, arg.string? = some reference ∧ resolve scope.root reference = .ok schema := by
  rw [target.eq_def] at h
  split at h
  · cases h
  · next reference hreference => exact ⟨reference, hreference, h⟩

theorem eq_of_admitted {schema other : Value} (h : admitted scope schema = .ok other) : other = schema := by
  rw [admitted.eq_def] at h
  split at h
  · cases h
  · exact (Except.ok.inj h).symm

/-- A reference is judged by the schema that it leads to. -/
theorem allArise_reference (hkeyword : keyword ∈ referenceKeywords) :
    AllArise keyword scope arg v (reference scope arg v) := by
  refine allArise_bind (fun cause hcause => .lost hkeyword ?_) fun schema hschema => ?_
  · rintro ⟨reference, schema, hreference, hresolve, -⟩
    rw [target, hreference] at hcause
    dsimp only at hcause
    rw [hresolve] at hcause
    cases hcause
  · obtain ⟨reference, hreference, hresolve⟩ : ∃ reference, arg.string? = some reference ∧
        resolve scope.root reference = .ok schema := by
      refine eq_ok_of_target ?_
      cases htarget : target scope arg with
      | error lost => rw [htarget] at hschema; cases hschema
      | ok other => rw [htarget] at hschema; rw [Except.ok.inj hschema]
    refine allArise_bind (fun cause hcause => .lost hkeyword ?_) fun other hother => ?_
    · rintro ⟨reference', schema', hreference', hresolve', hadmitted⟩
      obtain rfl := Option.some.inj (hreference.symm.trans hreference')
      obtain rfl := Except.ok.inj (hresolve.symm.trans hresolve')
      rw [admitted, hadmitted] at hcause
      cases hcause
    · obtain rfl := eq_of_admitted hother
      exact allArise_pure fun f hf => .whole (.target hkeyword hreference hresolve) hf

end Keywords

/-! ## All keywords -/

/-- The failures of every keyword come about in one of these ways. -/
theorem arises_of_mem_keywords :
    ∀ pair ∈ keywords, ∀ scope arg v, AllArise pair.1 scope arg v (pair.2 scope arg v) := by
  simp only [keywords, List.forall_mem_cons]
  -- in the order of the table
  exact ⟨fun _ _ _ => allArise_reference (by decide), fun _ _ _ => allArise_reference (by decide),
    fun _ _ _ => allArise_typeKeyword, fun _ _ _ => allArise_properties, fun _ _ _ => allArise_required,
    fun _ _ _ => allArise_additionalProperties, fun _ _ _ => allArise_patternProperties,
    fun _ _ _ => allArise_enumKeyword, fun _ _ _ => allArise_constKeyword,
    fun _ _ _ => allArise_boundKeyword _ _, fun _ _ _ => allArise_boundKeyword _ _,
    fun _ _ _ => allArise_boundKeyword _ _, fun _ _ _ => allArise_boundKeyword _ _,
    fun _ _ _ => allArise_multipleOf, fun _ _ _ => allArise_minLength, fun _ _ _ => allArise_maxLength,
    fun _ _ _ => allArise_pattern, fun _ _ _ => allArise_format, fun _ _ _ => allArise_prefixItems,
    fun _ _ _ => allArise_items, fun _ _ _ => allArise_contains, fun _ _ _ => allArise_minItems,
    fun _ _ _ => allArise_maxItems, fun _ _ _ => allArise_uniqueItems, fun _ _ _ => allArise_minProperties,
    fun _ _ _ => allArise_maxProperties, fun _ _ _ => allArise_propertyNames,
    fun _ _ _ => allArise_dependentRequired, fun _ _ _ => allArise_dependentSchemas, fun _ _ _ => allArise_allOf,
    fun _ _ _ => allArise_anyOf, fun _ _ _ => allArise_oneOf, fun _ _ _ => allArise_negation,
    fun _ _ _ => allArise_condition, fun _ _ _ => allArise_unevaluatedProperties,
    fun _ _ _ => allArise_unevaluatedItems, fun _ h => absurd h List.not_mem_nil⟩

/-- A failure under a schema is one of the schema as a whole, or of one of its keywords, which judge by subschemas
with the budget that is left. -/
theorem failuresWithin_cases {root schema v : Value} {manner : Manner} {budget : Nat} {f : Failure}
    (hf : f ∈ failuresWithin root manner (budget + 1) schema v) :
    (∃ message, StartsApart message ∧ f = .here message) ∨
      ∃ members name arg keyword, schema = .object members ∧ (name, arg) ∈ members ∧ (name, keyword) ∈ keywords ∧
        f ∈ keyword ⟨root, members, manner, budget, failuresWithin root manner budget⟩ arg v := by
  unfold failuresWithin at hf
  split at hf
  · obtain rfl := List.mem_singleton.1 hf
    exact Or.inl ⟨_, StartsApart.append ⟨'F', rfl, by decide⟩ _, rfl⟩
  · next members =>
    obtain ⟨⟨name, arg⟩, hmember, hf⟩ := List.mem_flatMap.1 hf
    rw [keywordFailures] at hf
    split at hf
    · next keyword hkeyword =>
      exact Or.inr ⟨members, name, arg, keyword, rfl, hmember, Members.mem_of_get?_eq_some hkeyword, hf⟩
    · exact absurd hf List.not_mem_nil
  · exact absurd hf List.not_mem_nil

end SnippetAudit.Schema
