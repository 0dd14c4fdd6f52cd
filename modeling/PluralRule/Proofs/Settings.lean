import PluralRule.Proofs.Numeral
import PluralRule.Proofs.Session

/-!
What records come to. A record describes a formula text, a number of forms and
limits, each from one entry or by its absence. A library decodes it, of which only
some laws are known: how it reads each field, and that it names all fields that it
does not accept. Main statement: under such a library decoding a record does just
what compiling from what it describes does, and any other record is rejected with
its unusable entries named, whatever text its formula has.
-/

namespace PluralRule

namespace Settings

/-- What a record says about limits: its first name counts wherever it is present,
and nothing is said where neither is. -/
def limitsEntry (record : Record) : Value :=
  ((record.find? limitsNames.1).or (record.find? limitsNames.2)).getD .null

inductive Gives : Option Value → String → Prop where
  | absent : Gives none ""
  | text (plural : String) : Gives (some (.text plural)) plural

inductive Counts (integer? : Value → Option Int) : Option Value → Int → Prop where
  | absent : Counts integer? none Selector.standardCount
  | read {value : Value} {count : Int} (read : integer? value = some count)
      (positive : 1 ≤ count) : Counts integer? (some value) count

inductive Grants : Value → Limits → Prop where
  | standard : Grants .null Limits.standard
  | limits (limits : Limits) : Grants (.limits limits) limits
  | record {fields : Record} {limits : Limits} (read : Limits.ofRecord fields = .ok limits) :
      Grants (.record fields) limits

inductive Means : Value → Int → Prop where
  | integer (number : Int) : Means (.int number) number
  | truth (holds : Bool) : Means (.bool holds) (if holds then 1 else 0)
  | numeral (number : Int) (narrow : (Text.integerText number).length ≤ 4300) :
      Means (.text (Text.integerText number)) number

/-- What the limits are decoded to: what `limitsFrom` makes of the entry under the name
that counts, and nothing where there is no entry. -/
inductive Bounds (record : Record) : Option Limits → Prop where
  | absent (absent : record.find? (limitsName record) = none) : Bounds record none
  | read {value : Value} {limits : Option Limits}
      (present : record.find? (limitsName record) = some value)
      (read : limitsFrom value = .ok limits) : Bounds record limits

/-- The laws of a library that decodes settings. It reads values as integers in its own
way, which is known of integers, truth values and numerals; a decoded record has all its
fields accepted, and a rejected one has exactly the fields named, at least one, that it
does not accept. -/
structure Lawful (integer? : Value → Option Int) (decoder : Decoder) : Prop where
  reads : ∀ {value number}, Means value number → integer? value = some number
  accepted : ∀ {record settings}, decoder record = .ok settings →
    Gives (record.find? pluralName) settings.plural ∧
      (∃ count, settings.count = .int count ∧ Counts integer? (record.find? countName) count) ∧
      Bounds record settings.limits
  rejected : ∀ {record rejections}, decoder record = .error rejections →
    rejections ≠ [] ∧ ∀ field, field ∈ rejections.map Rejection.field ↔
      (field = limitsName record ∧ ¬ ∃ limits, Bounds record limits) ∨
        (field = countName ∧ ¬ ∃ count, Counts integer? (record.find? countName) count) ∨
        (field = pluralName ∧ ¬ ∃ plural, Gives (record.find? pluralName) plural)

structure Describes (integer? : Value → Option Int) (record : Record) (plural : String)
    (count : Int) (limits : Limits) : Prop where
  plural : Gives (record.find? pluralName) plural
  count : Counts integer? (record.find? countName) count
  limits : Grants (limitsEntry record) limits

inductive Fails (integer? : Value → Option Int) (record : Record) : String → Prop where
  | limits (useless : ¬ ∃ limits, Grants (limitsEntry record) limits) :
      Fails integer? record (limitsName record)
  | count (useless : ¬ ∃ count, Counts integer? (record.find? countName) count) :
      Fails integer? record countName
  | plural (useless : ¬ ∃ plural, Gives (record.find? pluralName) plural) :
      Fails integer? record pluralName

variable {integer? : Value → Option Int} {decoder : Decoder} {record : Record}
  {given : Option Value} {value : Value} {plural : String} {count : Int} {limits : Limits}

theorem Gives.unique {other : String} (gives : Gives given plural) (again : Gives given other) :
    plural = other := by
  cases gives <;> cases again <;> rfl

theorem Counts.unique {other : Int} (counts : Counts integer? given count)
    (again : Counts integer? given other) : count = other := by
  cases counts with
  | absent =>
      cases again
      rfl
  | read read positive =>
      cases again with
      | read found least => exact Option.some.inj (read.symm.trans found)

theorem Grants.unique {other : Limits} (grants : Grants value limits)
    (again : Grants value other) : limits = other := by
  cases grants with
  | standard =>
      cases again
      rfl
  | limits =>
      cases again
      rfl
  | record read =>
      cases again with
      | record found => exact Except.ok.inj (read.symm.trans found)

theorem Counts.positive (counts : Counts integer? given count) : 1 ≤ count := by
  cases counts with
  | absent => decide
  | read read positive => exact positive

theorem limitsFrom_iff :
    (∃ chosen, limitsFrom value = .ok chosen ∧ chosen.getD Limits.standard = limits) ↔
      Grants value limits := by
  constructor
  · rintro ⟨chosen, read, rfl⟩
    cases value with
    | null =>
        cases read
        exact .standard
    | limits limits =>
        cases read
        exact .limits limits
    | record fields =>
        simp only [limitsFrom] at read
        split at read
        · next limits found =>
            cases read
            exact .record found
        · cases read
    | _ => cases read
  · intro grants
    cases grants with
    | standard => exact ⟨none, rfl, rfl⟩
    | limits => exact ⟨some limits, rfl, rfl⟩
    | record read => exact ⟨some limits, by simp only [limitsFrom, read], rfl⟩

theorem limitsEntry_eq (record : Record) :
    limitsEntry record = (record.find? (limitsName record)).getD .null := by
  rw [limitsEntry, limitsName]
  cases first : record.find? limitsNames.1 with
  | some value => simp only [Option.isSome_some, if_true, first, Option.some_or, Option.getD_some]
  | none => simp only [Option.isSome_none, Bool.false_eq_true, if_false, Option.none_or]

theorem bounds_iff :
    (∃ chosen, Bounds record chosen ∧ chosen.getD Limits.standard = limits) ↔
      Grants (limitsEntry record) limits := by
  -- Both sides look at the entry under the name that counts.
  rw [limitsEntry_eq]
  cases found : record.find? (limitsName record) with
  | none =>
      constructor
      · rintro ⟨chosen, bounds, rfl⟩
        cases bounds with
        | absent absent => exact .standard
        | read present read => cases found.symm.trans present
      · intro grants
        cases grants
        exact ⟨none, .absent found, rfl⟩
  | some value =>
      rw [Option.getD_some, ← limitsFrom_iff]
      constructor
      · rintro ⟨chosen, bounds, rfl⟩
        cases bounds with
        | absent absent => cases found.symm.trans absent
        | read present read =>
            cases found.symm.trans present
            exact ⟨chosen, read, rfl⟩
      · rintro ⟨chosen, read, same⟩
        exact ⟨chosen, .read found read, same⟩

theorem bounded_iff :
    (∃ chosen, Bounds record chosen) ↔ ∃ limits, Grants (limitsEntry record) limits := by
  constructor
  · rintro ⟨chosen, bounds⟩
    exact ⟨_, bounds_iff.mp ⟨chosen, bounds, rfl⟩⟩
  · rintro ⟨limits, grants⟩
    obtain ⟨chosen, bounds, -⟩ := bounds_iff.mpr grants
    exact ⟨chosen, bounds⟩

namespace Lawful

variable (lawful : Lawful integer? decoder)

include lawful

theorem mem_fields {rejections : List Rejection} (rejected : decoder record = .error rejections)
    (field : String) : field ∈ rejections.map Rejection.field ↔ Fails integer? record field := by
  rw [(lawful.rejected rejected).2, bounded_iff]
  constructor
  · rintro (⟨rfl, useless⟩ | ⟨rfl, useless⟩ | ⟨rfl, useless⟩)
    · exact .limits useless
    · exact .count useless
    · exact .plural useless
  · intro fails
    cases fails with
    | limits useless => exact Or.inl ⟨rfl, useless⟩
    | count useless => exact Or.inr (Or.inl ⟨rfl, useless⟩)
    | plural useless => exact Or.inr (Or.inr ⟨rfl, useless⟩)

theorem describes_of_accepted {settings : Settings} (accepted : decoder record = .ok settings) :
    ∃ count, Describes integer? record settings.plural count
        (settings.limits.getD Limits.standard) ∧
      settings.selector = Selector.compile (settings.limits.getD Limits.standard)
        settings.plural (.int count) := by
  obtain ⟨gives, ⟨count, counted, counts⟩, bounds⟩ := lawful.accepted accepted
  refine ⟨count, ⟨gives, counts, bounds_iff.mp ⟨_, bounds, rfl⟩⟩, ?_⟩
  -- The decoded number of forms is an integer, so compiling cannot refuse it.
  rw [selector, counted]

theorem accepts (describes : Describes integer? record plural count limits) :
    ∃ settings, decoder record = .ok settings ∧
      settings.selector = Selector.compile limits plural (.int count) := by
  cases outcome : decoder record with
  | error rejections =>
      -- At least one field would be named, and each of them is of use.
      obtain ⟨named, exactly⟩ := lawful.rejected outcome
      obtain ⟨first, member⟩ := List.exists_mem_of_ne_nil rejections named
      have fails := (lawful.mem_fields outcome first.field).mp (List.mem_map_of_mem member)
      generalize first.field = field at fails
      cases fails with
      | limits useless => exact absurd ⟨limits, describes.limits⟩ useless
      | count useless => exact absurd ⟨count, describes.count⟩ useless
      | plural useless => exact absurd ⟨plural, describes.plural⟩ useless
  | ok settings =>
      obtain ⟨number, whole, selects⟩ := lawful.describes_of_accepted outcome
      obtain rfl := whole.plural.unique describes.plural
      obtain rfl := whole.count.unique describes.count
      obtain rfl := whole.limits.unique describes.limits
      exact ⟨settings, rfl, selects⟩

theorem rejects (useless : ¬ ∃ plural count limits, Describes integer? record plural count limits) :
    ∃ rejections, decoder record = .error rejections := by
  cases outcome : decoder record with
  | error rejections => exact ⟨rejections, rfl⟩
  | ok settings =>
      obtain ⟨count, describes, -⟩ := lawful.describes_of_accepted outcome
      exact absurd ⟨_, count, _, describes⟩ useless

theorem not_counts (given : record.find? countName = some value) (means : Means value count)
    (small : count < 1) : ¬ ∃ number, Counts integer? (record.find? countName) number := by
  rintro ⟨number, counts⟩
  rw [given] at counts
  cases counts with
  | read read positive =>
      cases (lawful.reads means).symm.trans read
      exact absurd positive (Int.not_le.mpr small)

end Lawful

theorem fails_iff_eq_countName {field : String} (gives : Gives (record.find? pluralName) plural)
    (grants : Grants (limitsEntry record) limits)
    (countless : ¬ ∃ number, Counts integer? (record.find? countName) number) :
    Fails integer? record field ↔ field = countName := by
  constructor
  · intro fails
    cases fails with
    | limits useless => exact absurd ⟨limits, grants⟩ useless
    | count useless => rfl
    | plural useless => exact absurd ⟨plural, gives⟩ useless
  · rintro rfl
    exact .count countless

theorem pluralFrom_eq_ok_iff : pluralFrom given = .ok plural ↔ Gives given plural := by
  constructor
  · intro read
    cases given with
    | none =>
        cases read
        exact .absent
    | some value =>
        cases value with
        | text text =>
            cases read
            exact .text plural
        | _ => cases read
  · intro gives
    cases gives <;> rfl

def integerOf? (value : Value) : Option Int := (integerFrom value).toOption

theorem integerFrom_eq_ok_iff : integerFrom value = .ok count ↔ integerOf? value = some count := by
  rw [integerOf?]
  cases integerFrom value <;> simp [Except.toOption]

theorem countFrom_eq_ok_iff : countFrom given = .ok count ↔ Counts integerOf? given count := by
  constructor
  · intro found
    cases given with
    | none =>
        cases found
        exact .absent
    | some value =>
        simp only [countFrom] at found
        split at found
        · next number read =>
            split at found
            · cases found
            · next large =>
                cases found
                exact .read (integerFrom_eq_ok_iff.mp read) (Int.not_lt.mp large)
        · cases found
  · intro counts
    cases counts with
    | absent => rfl
    | read read positive =>
        simp only [countFrom, integerFrom_eq_ok_iff.mpr read, if_neg (Int.not_lt.mpr positive)]

theorem grantFrom_eq_ok_iff {chosen : Option Limits} :
    grantFrom (record.find? (limitsName record)) = .ok chosen ↔ Bounds record chosen := by
  constructor
  · intro granted
    cases found : record.find? (limitsName record) with
    | none =>
        rw [found] at granted
        cases granted
        exact .absent found
    | some value =>
        rw [found, grantFrom] at granted
        cases read : limitsFrom value with
        | error message =>
            rw [read] at granted
            cases granted
        | ok limits =>
            rw [read] at granted
            cases granted
            exact .read found read
  · intro bounds
    cases bounds with
    | absent absent => rw [absent, grantFrom]
    | read present read =>
        rw [present, grantFrom, read]
        rfl

theorem mem_rejectionOf {Result : Type} {name field : String}
    {outcome : Except Rejection.Cause Result} :
    field ∈ (rejectionOf name outcome).map Rejection.field ↔
      field = name ∧ ¬ ∃ result, outcome = .ok result := by
  cases outcome <;> simp [rejectionOf]

theorem rejectionOf_eq_nil_iff {Result : Type} {name : String}
    {outcome : Except Rejection.Cause Result} :
    rejectionOf name outcome = [] ↔ ∃ result, outcome = .ok result := by
  cases outcome <;> simp [rejectionOf]

def rejections (record : Record) : List Rejection :=
  rejectionOf (limitsName record) (grantFrom (record.find? (limitsName record))) ++
    rejectionOf countName (countFrom (record.find? countName)) ++
    rejectionOf pluralName (pluralFrom (record.find? pluralName))

theorem ofRecord_error {rejected : List Rejection} (refused : ofRecord record = .error rejected) :
    rejected = rejections record ∧ rejections record ≠ [] := by
  simp only [ofRecord] at refused
  split at refused
  · cases refused
  · next useless =>
      cases refused
      refine ⟨rfl, fun nothing => ?_⟩
      simp only [rejections, List.append_eq_nil_iff, rejectionOf_eq_nil_iff] at nothing
      obtain ⟨⟨⟨limits, granted⟩, ⟨count, counted⟩⟩, ⟨plural, spelled⟩⟩ := nothing
      exact useless limits count plural granted counted spelled

/-- The decoder that comes with the settings keeps the laws. -/
theorem ofRecord_lawful : Lawful integerOf? ofRecord where
  reads means := by
    refine integerFrom_eq_ok_iff.mp ?_
    cases means with
    | integer => rfl
    | truth => rfl
    | numeral _ narrow => simp only [integerFrom, Text.Numeral.read_integerText _ narrow]
  accepted accepted := by
    simp only [ofRecord] at accepted
    split at accepted
    · next granted counted spelled =>
        cases accepted
        exact ⟨pluralFrom_eq_ok_iff.mp spelled, ⟨_, rfl, countFrom_eq_ok_iff.mp counted⟩,
          grantFrom_eq_ok_iff.mp granted⟩
    · cases accepted
  rejected refused := by
    obtain ⟨rfl, named⟩ := ofRecord_error refused
    refine ⟨named, fun field => ?_⟩
    simp only [rejections, List.map_append, List.mem_append, mem_rejectionOf,
      grantFrom_eq_ok_iff, countFrom_eq_ok_iff, pluralFrom_eq_ok_iff, or_assoc]

end Settings

namespace Session

open Settings (Describes Fails Gives Grants Lawful Means countName limitsEntry pluralName)

variable {integer? : Value → Option Int} {decoder : Decoder}

theorem perform_decode_eq_compile [Writing] (lawful : Lawful integer? decoder) {record : Record}
    {plural : String} {count : Int} {limits : Limits}
    (describes : Describes integer? record plural count limits) (session : Session)
    (name : String) :
    session.perform decoder (.decode name record) =
      session.perform decoder (.compile name plural (.int count) limits) := by
  obtain ⟨settings, decoded, selects⟩ := lawful.accepts describes
  simp only [perform, decoded, selects]

theorem perform_compile_ne_refusal [Writing] (session : Session) (name plural : String)
    {count : Int} (limits : Limits) (positive : 1 ≤ count) (refusal : Refusal) :
    (session.perform decoder (.compile name plural (.int count) limits)).result.1 ≠
      .objected (.refusal refusal) := by
  simp only [perform, keep]
  cases read : Selector.treeOf limits (Text.trimmed plural) with
  | error fault => simp [Selector.compile, read]
  | ok tree =>
      obtain ⟨selector, compiled, -⟩ := Selector.compile_of_read positive read
      simp [compiled]

/-- Under a lawful library decoding a record is compiling from what it describes: the same
reply, the same session and the same events, and the number of forms is never refused. A
record that describes nothing is rejected with exactly the entries named that are of no
use; its formula is neither compiled nor recorded. A number of forms may be an integer, a
truth value or an integer written out; where it is below one, nothing else is named. -/
theorem perform_decode [Writing] (lawful : Lawful integer? decoder) :
    (∀ (record : Record) (plural : String) (count : Int) (limits : Limits),
      Describes integer? record plural count limits → ∀ (session : Session) (name : String),
        session.perform decoder (.decode name record) =
            session.perform decoder (.compile name plural (.int count) limits) ∧
          ∀ refusal, (session.perform decoder (.decode name record)).result.1 ≠
            .objected (.refusal refusal)) ∧
      (∀ record : Record,
        (¬ ∃ plural count limits, Describes integer? record plural count limits) →
          ∃ rejections : List Rejection, rejections ≠ [] ∧
            (∀ field, field ∈ rejections.map Rejection.field ↔ Fails integer? record field) ∧
            ∀ (session : Session) (name : String),
              session.perform decoder (.decode name record) =
                ⟨(.rejected rejections, session), []⟩) ∧
      ∀ (record : Record) (plural : String) (value : Value) (count : Int) (limits : Limits),
        Gives (record.find? pluralName) plural → record.find? countName = some value →
        Means value count → Grants (limitsEntry record) limits →
          ∀ (session : Session) (name : String),
            (1 ≤ count → session.perform decoder (.decode name record) =
              session.perform decoder (.compile name plural (.int count) limits)) ∧
            (count < 1 → ∃ rejections : List Rejection,
              session.perform decoder (.decode name record) =
                ⟨(.rejected rejections, session), []⟩ ∧
              ∀ field, field ∈ rejections.map Rejection.field ↔ field = countName) := by
  refine ⟨fun record plural count limits describes session name => ⟨?_, fun refusal => ?_⟩,
    fun record useless => ?_, fun record plural value count limits gives given means grants
    session name => ⟨fun positive => ?_, fun small => ?_⟩⟩
  · exact perform_decode_eq_compile lawful describes session name
  · rw [perform_decode_eq_compile lawful describes]
    exact perform_compile_ne_refusal session name plural limits describes.count.positive refusal
  · obtain ⟨rejections, rejected⟩ := lawful.rejects useless
    refine ⟨rejections, (lawful.rejected rejected).1, lawful.mem_fields rejected,
      fun session name => ?_⟩
    simp only [perform, rejected]
  · have counts : Settings.Counts integer? (record.find? countName) count := by
      rw [given]
      exact .read (lawful.reads means) positive
    exact perform_decode_eq_compile lawful ⟨gives, counts, grants⟩ session name
  -- Only the number of forms is of no use, so no other field is named.
  · have countless := lawful.not_counts given means small
    have useless : ¬ ∃ plural count limits, Describes integer? record plural count limits := by
      rintro ⟨_, number, _, describes⟩
      exact countless ⟨number, describes.count⟩
    obtain ⟨rejections, rejected⟩ := lawful.rejects useless
    refine ⟨rejections, by simp only [perform, rejected], fun field => ?_⟩
    rw [lawful.mem_fields rejected]
    exact Settings.fails_iff_eq_countName gives grants countless

def doublyLimited : Record :=
  [("plural", .text "n > 1"), ("nplurals", .text "3"), ("expressionLimits", .null),
    ("expression_limits", .int 5)]

def faulty : Record :=
  [("plural", .text "n +"), ("nplurals", .int 0), ("expression_limits", .int 5)]

def truthful (holds : Bool) : Record := [("plural", .text "n > 1"), ("nplurals", .bool holds)]

attribute [local instance] Writing.standard

theorem perform_decode_doublyLimited :
    Lawful Settings.integerOf? Settings.ofRecord ∧
      (∀ (session : Session) (name : String),
        session.perform Settings.ofRecord (.decode name doublyLimited) =
          session.perform Settings.ofRecord (.compile name "n > 1" (.int 3) Limits.standard)) ∧
      (∃ rejections : List Rejection,
        (∀ field, field ∈ rejections.map Rejection.field ↔
          field = "nplurals" ∨ field = "expression_limits") ∧
        ∀ (session : Session) (name : String),
          session.perform Settings.ofRecord (.decode name faulty) =
            ⟨(.rejected rejections, session), []⟩) ∧
      (∀ (session : Session) (name : String),
        session.perform Settings.ofRecord (.decode name (truthful true)) =
          session.perform Settings.ofRecord (.compile name "n > 1" (.int 1) Limits.standard)) ∧
      ∀ (session : Session) (name : String), ∃ rejections : List Rejection,
        session.perform Settings.ofRecord (.decode name (truthful false)) =
            ⟨(.rejected rejections, session), []⟩ ∧
          ∀ field, field ∈ rejections.map Rejection.field ↔ field = "nplurals" := by
  obtain ⟨compiles, rejects, means⟩ := perform_decode Settings.ofRecord_lawful
  have describes : Describes Settings.integerOf? doublyLimited "n > 1" 3 Limits.standard :=
    ⟨.text "n > 1", .read (by decide +kernel) (by decide), .standard⟩
  have gives : Gives (faulty.find? pluralName) "n +" := .text "n +"
  have countless : ¬ ∃ count,
      Settings.Counts Settings.integerOf? (faulty.find? countName) count := by
    rintro ⟨count, counts⟩
    cases Settings.countFrom_eq_ok_iff.mpr counts
  have limitless : ¬ ∃ limits, Grants (limitsEntry faulty) limits := by
    rintro ⟨limits, grants⟩
    obtain ⟨chosen, granted, -⟩ := Settings.limitsFrom_iff.mpr grants
    cases granted
  have useless : ¬ ∃ plural count limits,
      Describes Settings.integerOf? faulty plural count limits := by
    rintro ⟨plural, count, limits, whole⟩
    exact countless ⟨count, whole.count⟩
  obtain ⟨rejections, -, named, rejected⟩ := rejects faulty useless
  refine ⟨Settings.ofRecord_lawful,
    fun session name => (compiles _ _ _ _ describes session name).1,
    ⟨rejections, fun field => (named field).trans ⟨fun fails => ?_, ?_⟩, rejected⟩,
    fun session name => ?_, fun session name => ?_⟩
  · cases fails with
    | limits => exact Or.inr rfl
    | count => exact Or.inl rfl
    | plural useless => exact absurd ⟨_, gives⟩ useless
  · rintro (rfl | rfl)
    · exact .count countless
    · exact .limits limitless
  · exact (means (truthful true) "n > 1" _ 1 _ (.text _) rfl (.truth true) .standard
      session name).1 (by decide)
  · exact (means (truthful false) "n > 1" _ 0 _ (.text _) rfl (.truth false) .standard
      session name).2 (by decide)

end Session

end PluralRule
