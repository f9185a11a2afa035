import Mathlib.Data.List.Nodup
import QueryGateway.Proofs.Settings.Acceptance
import QueryGateway.Proofs.Text.Digits
import QueryGateway.Proofs.Text.Runs

/-!
# What is reported about a configuration

A configuration has to keep a number of rules, which stand in an order: those of
addresses, then two for each mapping, then those of limits.  Whether a rule is
broken is said of the configuration alone.  In particular an id is written again
where some earlier mapping has it, whatever else is wrong with that mapping.

Validation goes through the mappings once and remembers the ids it has seen.  It
reports exactly the rules that are broken, in their order and each of them once:
what it remembers at a mapping are the ids that are written in front of it.

So no mapping hides a problem of another one.  The other problems stay as they
are when a mapping is given another pattern, and those of the other mappings were
there already when a mapping is taken out.
-/

namespace QueryGateway.Settings

open Routing

/-! ## Rules -/

/-- What listens at an address. -/
inductive Endpoint where
  | listener
  | administration
  | metrics
deriving DecidableEq, Repr

/-- What there may be only so much of. -/
inductive Limit where
  | timeout
  | greatestBody
  | concurrency
deriving DecidableEq, Repr

/-- Something that a configuration has to satisfy. -/
inductive Rule where
  /-- The address of an endpoint is a socket address. -/
  | address (endpoint : Endpoint)
  /-- The pattern of a mapping can be compiled. -/
  | pattern (index : Nat)
  /-- The id of a mapping is not that of an earlier one. -/
  | id (index : Nat)
  /-- A limit is not zero. -/
  | limit (bound : Limit)
deriving DecidableEq, Repr

def Endpoint.field : Endpoint → String
  | .listener => "listener.bind_address"
  | .administration => "admin.bind_address"
  | .metrics => "observability.metrics_address"

def Limit.field : Limit → String
  | .timeout => "upstream.timeout_secs"
  | .greatestBody => "upstream.max_body_bytes"
  | .concurrency => "query.follow_up_concurrency"

/-- What is said where the limit is zero. -/
def Limit.demand : Limit → String
  | .timeout => "must be at least 1 second"
  | .greatestBody => "must be greater than zero"
  | .concurrency => "must be at least 1"

/-- The field that a rule is about. -/
def Rule.field : Rule → String
  | .address endpoint => endpoint.field
  | .pattern index => "mappings[" ++ toString index ++ "].ingress"
  | .id index => "mappings[" ++ toString index ++ "].id"
  | .limit bound => bound.field

namespace Configuration

variable (configuration : Configuration)

def addressOf : Endpoint → String
  | .listener => configuration.listener.bindAddress
  | .administration => configuration.administration.bindAddress
  | .metrics => configuration.observability.metricsAddress

/-- Is there anything at the endpoint?  There always is a listener. -/
def opens : Endpoint → Bool
  | .listener => true
  | .administration => configuration.administration.enabled
  | .metrics => configuration.observability.metricsEnabled

def limitOf : Limit → Nat
  | .timeout => configuration.backend.timeoutSeconds
  | .greatestBody => configuration.backend.greatestBody
  | .concurrency => configuration.querying.concurrency

/-- The pattern of the mapping at a place, if there is one. -/
def ingressAt? (index : Nat) : Option String :=
  configuration.mappings[index]?.map (·.ingress)

/-- The id that is written for the mapping at a place, if there is one. -/
def idAt? (index : Nat) : Option String :=
  configuration.mappings[index]?.bind (·.id)

/-- Does the configuration break the rule? -/
def Violates : Rule → Prop
  | .address endpoint =>
      configuration.opens endpoint ∧
        ¬ SocketAddress.isSocketAddress (configuration.addressOf endpoint)
  | .pattern index =>
      ∃ ingress ∈ configuration.ingressAt? index, ¬ (compilePattern ingress).isOk
  | .id index =>
      ∃ id ∈ configuration.idAt? index, ∃ earlier < index, configuration.idAt? earlier = some id
  | .limit bound => configuration.limitOf bound = 0

instance : DecidablePred configuration.Violates
  | .address endpoint => inferInstanceAs (Decidable (configuration.opens endpoint ∧ _))
  | .pattern index => inferInstanceAs (Decidable (∃ ingress ∈ configuration.ingressAt? index, _))
  | .id index => inferInstanceAs (Decidable (∃ id ∈ configuration.idAt? index, _))
  | .limit bound => inferInstanceAs (Decidable (configuration.limitOf bound = 0))

/--
What is said about a rule that is broken.  Where it is one of a mapping, there is
a pattern or an id to be named.
-/
def remark : Rule → String
  | .address endpoint => "'" ++ configuration.addressOf endpoint ++ "' is not a socket address"
  | .pattern index =>
      (RoutingError.invalidPattern ((configuration.ingressAt? index).getD "") patternDetail).message
  | .id index => "duplicate mapping id '" ++ (configuration.idAt? index).getD "" ++ "'"
  | .limit bound => bound.demand

/-- The problem of a rule that is broken. -/
def report (rule : Rule) : Problem :=
  ⟨rule.field, configuration.remark rule⟩

/-- All rules in their order. -/
def rules : List Rule :=
  [.address .listener, .address .administration, .address .metrics] ++
    (List.range configuration.mappings.length).flatMap (fun index => [.pattern index, .id index]) ++
    [.limit .timeout, .limit .greatestBody, .limit .concurrency]

end Configuration

/-! ## Each rule has a place of its own -/

theorem mappingField_inj
    {index other : Nat}
    {name otherName : String} :
    mappingField index name = mappingField other otherName ↔ index = other ∧ name = otherName := by
  constructor
  · intro same
    -- The digits of the index are the longest run of digits behind the bracket.
    have allDigits : ∀ number : Nat, ∀ digit ∈ Nat.toDigits 10 number, digit.isDigit = true :=
      fun number => List.all_eq_true.mp (Digits.all_isDigit_toDigits number)
    have stops : ∀ text : List Char, StopsAt Char.isDigit (']' :: '.' :: text) :=
      fun text => stopsAt_cons (by decide) _
    have behind : Nat.toDigits 10 index ++ ']' :: '.' :: name.toList =
        Nat.toDigits 10 other ++ ']' :: '.' :: otherName.toList := by
      have texts := congrArg String.toList same
      simpa [mappingField, String.toList_append, Nat.toString_eq_ofList_toDigits] using texts
    obtain ⟨digits, rest⟩ := takeWhile_append_of_stopsAt (allDigits index) (stops name.toList)
    obtain ⟨otherDigits, otherRest⟩ :=
      takeWhile_append_of_stopsAt (allDigits other) (stops otherName.toList)
    rw [behind, otherDigits] at digits
    rw [behind, otherRest] at rest
    constructor
    · rw [← Digits.natural_toDigits index, ← digits, Digits.natural_toDigits]
    · exact String.toList_inj.mp (by simpa using rest.symm)
  · rintro ⟨rfl, rfl⟩
    rfl

theorem Rule.field_address
    (endpoint : Endpoint) :
    (Rule.address endpoint).field = endpoint.field :=
  rfl

theorem Rule.field_limit
    (bound : Limit) :
    (Rule.limit bound).field = bound.field :=
  rfl

theorem Rule.field_pattern
    (index : Nat) :
    (Rule.pattern index).field = mappingField index "ingress" := by
  rw [mappingField, String.append_assoc]
  rfl

theorem Rule.field_id
    (index : Nat) :
    (Rule.id index).field = mappingField index "id" := by
  rw [mappingField, String.append_assoc]
  rfl

theorem ne_mappingField
    {field : String}
    (startsOtherwise : field.toList.head? ≠ some 'm')
    (index : Nat)
    (name : String) :
    field ≠ mappingField index name := by
  rintro rfl
  exact startsOtherwise (head?_mappingField index name)

theorem Endpoint.field_ne
    (endpoint : Endpoint)
    (index : Nat)
    (name : String) :
    endpoint.field ≠ mappingField index name := by
  refine ne_mappingField ?_ index name
  cases endpoint <;> decide

theorem Limit.field_ne
    (bound : Limit)
    (index : Nat)
    (name : String) :
    bound.field ≠ mappingField index name := by
  refine ne_mappingField ?_ index name
  cases bound <;> decide

theorem Endpoint.field_inj
    {endpoint other : Endpoint} :
    endpoint.field = other.field ↔ endpoint = other := by
  cases endpoint <;> cases other <;> decide

theorem Limit.field_inj
    {bound other : Limit} :
    bound.field = other.field ↔ bound = other := by
  cases bound <;> cases other <;> decide

theorem Endpoint.field_ne_limit
    (endpoint : Endpoint)
    (bound : Limit) :
    endpoint.field ≠ bound.field := by
  cases endpoint <;> cases bound <;> decide

/-- Different rules are about different fields. -/
theorem Rule.field_injective : Function.Injective Rule.field := by
  intro rule other same
  cases rule <;> cases other <;>
    grind [Rule.field_address, Rule.field_pattern, Rule.field_id, Rule.field_limit,
      mappingField_inj, Endpoint.field_inj, Endpoint.field_ne, Endpoint.field_ne_limit,
      Limit.field_inj, Limit.field_ne]

/-! ## What is reported about one rule -/

/-- The error of a pattern that cannot be compiled tells the pattern. -/
theorem error_of_compilePattern
    {ingress : String}
    {error : RoutingError}
    (refused : compilePattern ingress = .error error) :
    error = .invalidPattern ingress patternDetail := by
  rw [compilePattern] at refused
  split at refused
  · cases refused
  · exact (Except.error.inj refused).symm

namespace Configuration

variable {configuration : Configuration}

/-- What is reported about a rule: its problem if it is broken, and nothing if it is kept. -/
def told (configuration : Configuration) (rule : Rule) : List Problem :=
  if configuration.Violates rule then [configuration.report rule] else []

theorem told_of_violates
    {rule : Rule}
    (broken : configuration.Violates rule) :
    configuration.told rule = [configuration.report rule] :=
  if_pos broken

theorem told_of_not_violates
    {rule : Rule}
    (kept : ¬ configuration.Violates rule) :
    configuration.told rule = [] :=
  if_neg kept

theorem addressProblems_eq_told
    (endpoint : Endpoint) :
    (if configuration.opens endpoint then
        addressProblems endpoint.field (configuration.addressOf endpoint)
      else
        []) = configuration.told (.address endpoint) := by
  split
  case isTrue opens =>
    rw [addressProblems]
    split
    case isTrue isAddress =>
      have kept : ¬ configuration.Violates (.address endpoint) := fun broken => broken.2 isAddress
      exact (told_of_not_violates kept).symm
    case isFalse isNone =>
      have broken : configuration.Violates (.address endpoint) := ⟨opens, isNone⟩
      exact (told_of_violates broken).symm
  case isFalse isClosed =>
    have kept : ¬ configuration.Violates (.address endpoint) := fun broken => isClosed broken.1
    exact (told_of_not_violates kept).symm

theorem limitProblems_eq_told
    (bound : Limit) :
    limitProblems bound.field bound.demand (configuration.limitOf bound) =
      configuration.told (.limit bound) :=
  rfl

theorem remark_pattern
    (index : Nat) :
    configuration.remark (.pattern index) =
      (RoutingError.invalidPattern ((configuration.ingressAt? index).getD "")
        patternDetail).message :=
  rfl

theorem remark_id
    (index : Nat) :
    configuration.remark (.id index) =
      "duplicate mapping id '" ++ (configuration.idAt? index).getD "" ++ "'" :=
  rfl

theorem report_pattern
    {index : Nat}
    {ingress : String}
    (stands : configuration.ingressAt? index = some ingress) :
    configuration.report (.pattern index) =
      ⟨mappingField index "ingress",
        (RoutingError.invalidPattern ingress patternDetail).message⟩ := by
  rw [report, remark_pattern, stands, Rule.field_pattern, Option.getD_some]

theorem report_id
    {index : Nat}
    {id : String}
    (written : configuration.idAt? index = some id) :
    configuration.report (.id index) =
      ⟨mappingField index "id", "duplicate mapping id '" ++ id ++ "'"⟩ := by
  rw [report, remark_id, written, Rule.field_id, Option.getD_some]

theorem violates_pattern_iff
    {index : Nat}
    {ingress : String}
    (stands : configuration.ingressAt? index = some ingress) :
    configuration.Violates (.pattern index) ↔ ¬ (compilePattern ingress).isOk := by
  simp only [Violates, stands, Option.mem_some_iff, exists_eq_left']

theorem patternProblems_eq_told
    {index : Nat}
    {ingress : String}
    (stands : configuration.ingressAt? index = some ingress) :
    patternProblems index ingress = configuration.told (.pattern index) := by
  rw [patternProblems]
  cases compiled : compilePattern ingress with
  | ok pattern =>
      have kept : ¬ configuration.Violates (.pattern index) := by
        rw [violates_pattern_iff stands, compiled]
        exact not_not_intro rfl
      exact (told_of_not_violates kept).symm
  | error error =>
      have broken : configuration.Violates (.pattern index) := by
        rw [violates_pattern_iff stands, compiled]
        exact Bool.false_ne_true
      rw [told_of_violates broken, report_pattern stands, error_of_compilePattern compiled]

/-- What was seen in front of a place are the ids that are written there. -/
def Remembers (configuration : Configuration) (index : Nat) (seen : List String) : Prop :=
  ∀ id, id ∈ seen ↔ ∃ earlier < index, configuration.idAt? earlier = some id

theorem remembers_start : configuration.Remembers 0 [] := by
  simp [Remembers]

theorem Remembers.next
    {index : Nat}
    {seen : List String}
    (remembers : configuration.Remembers index seen) :
    configuration.Remembers (index + 1) ((configuration.idAt? index).toList ++ seen) := by
  intro id
  rw [List.mem_append, Option.mem_toList, remembers id, Nat.exists_lt_succ_right, or_comm]

theorem idProblems_eq_told
    {index : Nat}
    {seen : List String}
    (remembers : configuration.Remembers index seen) :
    idProblems index seen (configuration.idAt? index) = configuration.told (.id index) := by
  cases written : configuration.idAt? index with
  | none =>
      have kept : ¬ configuration.Violates (.id index) := by
        rintro ⟨id, isWritten, _⟩
        cases written.symm.trans isWritten
      exact (told_of_not_violates kept).symm
  | some id =>
      rw [idProblems]
      split
      case isTrue isSeen =>
        have broken : configuration.Violates (.id index) :=
          ⟨id, written, (remembers id).mp (List.contains_iff_mem.mp isSeen)⟩
        rw [told_of_violates broken, report_id written]
      case isFalse isNew =>
        have kept : ¬ configuration.Violates (.id index) := by
          rintro ⟨other, isWritten, again⟩
          cases written.symm.trans isWritten
          exact isNew (List.contains_iff_mem.mpr ((remembers id).mpr again))
        exact (told_of_not_violates kept).symm

/-! ## What is reported about all rules -/

/--
From any place in the list on, the two rules of each mapping are gone through in
their order.
-/
theorem mappingProblems_eq_told
    {index : Nat}
    {seen : List String}
    {drafts : List Draft}
    (behind : configuration.mappings.drop index = drafts)
    (remembers : configuration.Remembers index seen) :
    mappingProblems index seen drafts =
      ((List.range' index drafts.length).flatMap fun index => [.pattern index, .id index]).flatMap
        configuration.told := by
  -- By induction on the mappings that are left; the ids seen are always those in front of them.
  induction drafts generalizing index seen with
  | nil => rfl
  | cons draft drafts induction =>
      have stands : configuration.mappings[index]? = some draft := by
        rw [← Nat.add_zero index, ← List.getElem?_drop, behind]
        rfl
      have next : configuration.mappings.drop (index + 1) = drafts := by
        rw [← List.tail_drop, behind]
        rfl
      have ingress : configuration.ingressAt? index = some draft.ingress := by
        rw [ingressAt?, stands]
        rfl
      have id : configuration.idAt? index = draft.id := by
        rw [idAt?, stands]
        rfl
      rw [mappingProblems, patternProblems_eq_told ingress, ← id, idProblems_eq_told remembers,
        induction next remembers.next, List.length_cons, List.range'_succ, List.flatMap_cons,
        List.flatMap_append]
      simp only [List.flatMap_cons, List.flatMap_nil, List.append_nil]

theorem problems_eq_told
    (configuration : Configuration) :
    configuration.problems = configuration.rules.flatMap configuration.told := by
  have listener : addressProblems "listener.bind_address" configuration.listener.bindAddress =
      configuration.told (.address .listener) :=
    addressProblems_eq_told .listener
  have administration : (if configuration.administration.enabled then
        addressProblems "admin.bind_address" configuration.administration.bindAddress
      else
        []) = configuration.told (.address .administration) :=
    addressProblems_eq_told .administration
  have metrics : (if configuration.observability.metricsEnabled then
        addressProblems "observability.metrics_address" configuration.observability.metricsAddress
      else
        []) = configuration.told (.address .metrics) :=
    addressProblems_eq_told .metrics
  have mappings := mappingProblems_eq_told configuration.mappings.drop_zero
    configuration.remembers_start
  rw [← List.range_eq_range'] at mappings
  have timeout : limitProblems "upstream.timeout_secs" "must be at least 1 second"
      configuration.backend.timeoutSeconds = configuration.told (.limit .timeout) :=
    limitProblems_eq_told .timeout
  have greatestBody : limitProblems "upstream.max_body_bytes" "must be greater than zero"
      configuration.backend.greatestBody = configuration.told (.limit .greatestBody) :=
    limitProblems_eq_told .greatestBody
  have concurrency : limitProblems "query.follow_up_concurrency" "must be at least 1"
      configuration.querying.concurrency = configuration.told (.limit .concurrency) :=
    limitProblems_eq_told .concurrency
  rw [problems, listener, administration, metrics, mappings, timeout, greatestBody, concurrency,
    rules]
  simp only [List.flatMap_append, List.flatMap_cons, List.flatMap_nil, List.append_nil,
    List.append_assoc]

theorem map_report_filter
    (rules : List Rule) :
    (rules.filter (configuration.Violates ·)).map configuration.report =
      rules.flatMap configuration.told := by
  induction rules with
  | nil => rfl
  | cons rule rules induction =>
      by_cases broken : configuration.Violates rule
      · rw [List.filter_cons, if_pos (decide_eq_true broken), List.map_cons, induction,
          List.flatMap_cons, told_of_violates broken, List.singleton_append]
      · rw [List.filter_cons, if_neg (by simpa using broken), induction, List.flatMap_cons,
          told_of_not_violates broken, List.nil_append]

/-- Every rule that is broken is one of the configuration's rules. -/
theorem mem_rules_of_violates
    {rule : Rule}
    (broken : configuration.Violates rule) :
    rule ∈ configuration.rules := by
  cases rule with
  | address endpoint => cases endpoint <;> simp [rules]
  | pattern index =>
      obtain ⟨ingress, stands, _⟩ := broken
      obtain ⟨draft, stands, _⟩ := Option.map_eq_some_iff.mp stands
      simp [rules, (List.getElem?_eq_some_iff.mp stands).1]
  | id index =>
      obtain ⟨id, written, _⟩ := broken
      obtain ⟨draft, stands, _⟩ := Option.bind_eq_some_iff.mp written
      simp [rules, (List.getElem?_eq_some_iff.mp stands).1]
  | limit bound => cases bound <;> simp [rules]

theorem nodup_rules
    (configuration : Configuration) :
    configuration.rules.Nodup := by
  have mappings : ((List.range configuration.mappings.length).flatMap
      fun index => [Rule.pattern index, .id index]).Nodup := by
    refine List.nodup_flatMap.mpr ⟨fun index _ => by simp, List.nodup_range.imp ?_⟩
    intro index other differ
    simp [Function.onFun, differ.symm]
  rw [rules, List.append_assoc, List.nodup_append', List.nodup_append']
  refine ⟨by decide, ⟨mappings, by decide, ?_⟩, ?_⟩
  · intro rule isMapping isLimit
    cases rule <;> simp at isMapping isLimit
  · intro rule isAddress isOther
    cases rule <;> simp at isAddress isOther

/-! ## Other mappings -/

/-- The configuration with another pattern for the mapping at a place. -/
def withIngress (configuration : Configuration) (place : Nat) (ingress : String) : Configuration :=
  { configuration with
    mappings := configuration.mappings.modify place fun draft => { draft with ingress := ingress } }

/-- The configuration without the mapping at a place. -/
def without (configuration : Configuration) (place : Nat) : Configuration :=
  { configuration with mappings := configuration.mappings.eraseIdx place }

theorem idAt?_withIngress
    (place : Nat)
    (ingress : String)
    (index : Nat) :
    (configuration.withIngress place ingress).idAt? index = configuration.idAt? index := by
  rw [idAt?, idAt?, withIngress, List.getElem?_modify]
  cases configuration.mappings[index]? with
  | none => rfl
  | some draft =>
      rw [Option.map_eq_map, Option.map_some]
      split <;> rfl

theorem ingressAt?_withIngress
    {place index : Nat}
    (differ : place ≠ index)
    (ingress : String) :
    (configuration.withIngress place ingress).ingressAt? index =
      configuration.ingressAt? index := by
  rw [ingressAt?, ingressAt?, withIngress, List.getElem?_modify]
  simp [differ]

/-- Another pattern for a mapping changes nothing about the other rules. -/
theorem violates_withIngress_iff
    {place : Nat}
    {rule : Rule}
    (isOther : rule ≠ .pattern place)
    (ingress : String) :
    (configuration.withIngress place ingress).Violates rule ↔ configuration.Violates rule := by
  cases rule with
  | address endpoint => exact Iff.rfl
  | pattern index =>
      have differ : place ≠ index := fun same => isOther (same ▸ rfl)
      simp only [Violates, ingressAt?_withIngress differ]
  | id index => simp only [Violates, idAt?_withIngress]
  | limit bound => exact Iff.rfl

theorem report_withIngress
    {place : Nat}
    {rule : Rule}
    (isOther : rule ≠ .pattern place)
    (ingress : String) :
    (configuration.withIngress place ingress).report rule = configuration.report rule := by
  cases rule with
  | address endpoint => rfl
  | pattern index =>
      have differ : place ≠ index := fun same => isOther (same ▸ rfl)
      rw [report, report, remark_pattern, remark_pattern, ingressAt?_withIngress differ]
  | id index => rw [report, report, remark_id, remark_id, idAt?_withIngress]
  | limit bound => rfl

end Configuration

/-- Where a mapping stands when there is one more, at a place. -/
def indexAround (place index : Nat) : Nat :=
  if index < place then index else index + 1

/-- The rule when there is one more mapping, at a place. -/
def Rule.around (place : Nat) : Rule → Rule
  | .address endpoint => .address endpoint
  | .pattern index => .pattern (indexAround place index)
  | .id index => .id (indexAround place index)
  | .limit bound => .limit bound

theorem indexAround_lt
    {place earlier index : Nat}
    (before : earlier < index) :
    indexAround place earlier < indexAround place index := by
  rw [indexAround, indexAround]
  split <;> split <;> omega

namespace Configuration

variable {configuration : Configuration}

theorem getElem?_without
    (place index : Nat) :
    (configuration.without place).mappings[index]? =
      configuration.mappings[indexAround place index]? := by
  rw [without, indexAround, List.getElem?_eraseIdx]
  split <;> rfl

theorem ingressAt?_without
    (place index : Nat) :
    (configuration.without place).ingressAt? index =
      configuration.ingressAt? (indexAround place index) := by
  rw [ingressAt?, ingressAt?, getElem?_without]

theorem idAt?_without
    (place index : Nat) :
    (configuration.without place).idAt? index = configuration.idAt? (indexAround place index) := by
  rw [idAt?, idAt?, getElem?_without]

/-- What is wrong without a mapping is wrong with it. -/
theorem Violates.around
    {place : Nat}
    {rule : Rule}
    (broken : (configuration.without place).Violates rule) :
    configuration.Violates (rule.around place) := by
  cases rule with
  | address endpoint => exact broken
  | pattern index =>
      obtain ⟨ingress, stands, refused⟩ := broken
      rw [ingressAt?_without] at stands
      exact ⟨ingress, stands, refused⟩
  | id index =>
      obtain ⟨id, written, earlier, before, again⟩ := broken
      rw [idAt?_without] at written again
      exact ⟨id, written, indexAround place earlier, indexAround_lt before, again⟩
  | limit bound => exact broken

theorem remark_around
    (place : Nat)
    (rule : Rule) :
    configuration.remark (rule.around place) = (configuration.without place).remark rule := by
  cases rule with
  | address endpoint => rfl
  | pattern index => rw [Rule.around, remark_pattern, remark_pattern, ingressAt?_without]
  | id index => rw [Rule.around, remark_id, remark_id, idAt?_without]
  | limit bound => rfl

/-! ## All problems, and each of them once -/

/-- What is found are the problems of the rules that are broken. -/
theorem problems_eq_reports
    (configuration : Configuration) :
    configuration.problems =
      (configuration.rules.filter (configuration.Violates ·)).map configuration.report := by
  rw [problems_eq_told, map_report_filter]

theorem problems_eq_nil_iff :
    configuration.problems = [] ↔ ∀ rule, ¬ configuration.Violates rule := by
  rw [problems_eq_reports, List.map_eq_nil_iff, List.filter_eq_nil_iff]
  constructor
  · intro kept rule broken
    exact kept rule (mem_rules_of_violates broken) (decide_eq_true broken)
  · intro kept rule _ broken
    exact kept rule (of_decide_eq_true broken)

/-- A list of problems tells exactly what is wrong with a configuration. -/
structure Tells (configuration : Configuration) (problems : List Problem) : Prop where
  /-- The rules that are broken are gone through in their order. -/
  inOrder :
    problems = (configuration.rules.filter (configuration.Violates ·)).map configuration.report
  /-- No field comes up again. -/
  once : (problems.map (·.field)).Nodup
  /-- Every rule that is broken is told of, and no other one. -/
  complete : ∀ problem, problem ∈ problems ↔
    ∃ rule, configuration.Violates rule ∧ configuration.report rule = problem

theorem tells_problems
    (configuration : Configuration) :
    configuration.Tells configuration.problems where
  inOrder := configuration.problems_eq_reports
  once := by
    rw [problems_eq_reports, List.map_map]
    exact (configuration.nodup_rules.filter _).map Rule.field_injective
  complete problem := by
    rw [problems_eq_reports, List.mem_map]
    constructor
    · rintro ⟨rule, isBroken, rfl⟩
      exact ⟨rule, of_decide_eq_true (List.mem_filter.mp isBroken).2, rfl⟩
    · rintro ⟨rule, broken, rfl⟩
      exact ⟨rule, List.mem_filter.mpr ⟨mem_rules_of_violates broken, decide_eq_true broken⟩, rfl⟩

theorem validate_eq_ok_iff :
    configuration.validate = .ok () ↔ configuration.problems = [] := by
  rw [validate]
  cases configuration.problems with
  | nil => simp
  | cons first others => simp

/--
A configuration is accepted if it keeps every rule, and otherwise everything that
is wrong with it is told once and in order.  Nothing that is wrong with the rest
is hidden by a mapping: neither by its pattern, whatever that is, nor by its
being there.
-/
theorem validate_tells_all
    (configuration : Configuration) :
    (configuration.validate = .ok () ↔ ∀ rule, ¬ configuration.Violates rule) ∧
    (∀ problems, configuration.validate = .error problems ↔
      (∃ rule, configuration.Violates rule) ∧ configuration.Tells problems) ∧
    ∀ place rule,
      (rule ≠ .pattern place → ∀ ingress,
        ((configuration.withIngress place ingress).Violates rule ↔ configuration.Violates rule) ∧
          (configuration.withIngress place ingress).report rule = configuration.report rule) ∧
      ((configuration.without place).Violates rule →
        configuration.Violates (rule.around place) ∧
          configuration.remark (rule.around place) =
            (configuration.without place).remark rule) := by
  refine ⟨validate_eq_ok_iff.trans problems_eq_nil_iff, fun problems => ?_, fun place rule => ?_⟩
  · rw [validate_eq_error_iff]
    constructor
    · rintro ⟨rfl, someProblem⟩
      refine ⟨?_, configuration.tells_problems⟩
      by_contra noneBroken
      exact someProblem (problems_eq_nil_iff.mpr (not_exists.mp noneBroken))
    · rintro ⟨⟨rule, broken⟩, tells⟩
      have same : problems = configuration.problems :=
        tells.inOrder.trans configuration.tells_problems.inOrder.symm
      refine ⟨same, fun noProblem => ?_⟩
      exact problems_eq_nil_iff.mp (same.symm.trans noProblem) rule broken
  · constructor
    · intro isOther ingress
      exact ⟨violates_withIngress_iff isOther ingress, report_withIngress isOther ingress⟩
    · intro broken
      exact ⟨broken.around, remark_around place rule⟩

end Configuration

/-! ## Two mappings for pets, the first of which lacks a bracket -/

namespace TwicePets

/-- The mapping between them is in order, and so is an address at which nothing listens. -/
def configuration : Configuration where
  listener := ⟨"nowhere"⟩
  mappings :=
    [⟨some "pets", "http://gateway/pets/(", "http://pets/$1"⟩,
      ⟨none, ".*", "http://all"⟩,
      ⟨some "pets", "http://gateway/pets/(.*)", "http://pets/$1"⟩]
  backend := ⟨0, 1⟩
  querying := .standard
  observability := .standard
  administration := ⟨false, "nowhere"⟩

def problems : List Problem :=
  [⟨"listener.bind_address", "'nowhere' is not a socket address"⟩,
    ⟨"mappings[0].ingress",
      "invalid ingress pattern 'http://gateway/pets/(': the pattern cannot be compiled"⟩,
    ⟨"mappings[2].id", "duplicate mapping id 'pets'"⟩,
    ⟨"upstream.timeout_secs", "must be at least 1 second"⟩]

/--
The second mapping for pets is told of, whatever the pattern of the first one is,
and whether or not there is a mapping between them.
-/
theorem second_pets_are_told :
    configuration.validate = .error problems ∧
      configuration.Tells problems ∧
      (configuration.withIngress 0 "http://gateway/pets/").Violates (.id 2) ∧
      (configuration.without 1).Violates (.id 1) ∧
      configuration.Violates (.id 2) := by
  obtain ⟨_, refused, others⟩ := Configuration.validate_tells_all configuration
  have reports : configuration.validate = .error problems := by decide +kernel
  have isTwice : (configuration.without 1).Violates (.id 1) := by decide
  have isTwiceBehind : configuration.Violates (.id 2) := ((others 1 (.id 1)).2 isTwice).1
  have whateverPattern := ((others 0 (.id 2)).1 (by decide) "http://gateway/pets/").1
  exact ⟨reports, ((refused problems).mp reports).2, whateverPattern.mpr isTwiceBehind, isTwice,
    isTwiceBehind⟩

end TwicePets

end QueryGateway.Settings
