import PluralRule.Proofs.Selecting
import PluralRule.Session
import PluralRule.Settings.Record

/-!
What sessions promise. Each way of making a selector ends with a number of forms
that is an integer of at least one, or with no selector and nothing recorded, and
whatever decodes the settings cannot change that. Main statement: in every run each
command is answered and recorded as it should be, whatever went wrong before.
-/

namespace PluralRule

def Command.Gives (kind : Formula → Prop) : Command → Prop
  | .build _ _ _ tree => kind tree
  | _ => True

namespace Session

def Holds (kind : Formula → Prop) (session : Session) : Prop :=
  ∀ name selector, session name = some selector → kind selector.tree

variable {kind : Formula → Prop} {session next : Session} {name : String} {selector : Selector}

theorem Holds.hold (holds : session.Holds kind) (tree : kind selector.tree) :
    (session.hold name selector).Holds kind := by
  intro other found held
  simp only [Session.hold] at held
  split at held
  · cases held
    exact tree
  · exact holds other found held

section

variable [Writing] (decoder : Decoder)

/-- What a command does by right: its reply, the events it records and the
session that it leaves. -/
inductive Meets (session : Session) : Command → Reply → List Event → Session → Prop where
  | compiled {name formula text : String} {count : Value} {limits : Limits} {tree : Formula}
      {selector : Selector} (trims : Text.Trims formula text)
      (reads : Selector.Reads limits text (.ok tree))
      (made : Selector.Made text count tree selector) :
      Meets session (.compile name formula count limits) (.made selector)
        [.compiled text selector.count] (session.hold name selector)
  | faulty {name formula text : String} {count : Value} {limits : Limits} {fault : Fault}
      (trims : Text.Trims formula text) (reads : Selector.Reads limits text (.error fault)) :
      Meets session (.compile name formula count limits) (.objected (.fault text fault)) [] session
  | uncounted {name formula text : String} {count : Value} {limits : Limits} {tree : Formula}
      (trims : Text.Trims formula text) (reads : Selector.Reads limits text (.ok tree))
      (countless : count.Countless) :
      Meets session (.compile name formula count limits) (.objected (.refusal (.count count))) []
        session
  | configured {name : String} {settings : Settings} {reply : Reply} {events : List Event}
      {next : Session}
      (compiled : Meets session (.compile name settings.plural settings.count
        (settings.limits.getD Limits.standard)) reply events next) :
      Meets session (.configure name settings) reply events next
  | decoded {name : String} {record : Record} {settings : Settings} {reply : Reply}
      {events : List Event} {next : Session} (valid : decoder record = .ok settings)
      (configured : Meets session (.configure name settings) reply events next) :
      Meets session (.decode name record) reply events next
  | rejected {name : String} {record : Record} {rejections : List Rejection}
      (invalid : decoder record = .error rejections) :
      Meets session (.decode name record) (.rejected rejections) [] session
  | built {name formula : String} {count : Value} {tree : Formula} {selector : Selector}
      (made : Selector.Made formula count tree selector) :
      Meets session (.build name formula count tree) (.made selector) []
        (session.hold name selector)
  | unbuilt {name formula : String} {count : Value} {tree : Formula}
      (countless : count.Countless) :
      Meets session (.build name formula count tree) (.objected (.refusal (.count count))) []
        session
  | selected {name : String} {quantity : Value} {selector : Selector}
      {outcome : Except Refusal (Option Int)} {events : List Event}
      (held : session name = some selector)
      (selected : selector.Selected quantity outcome events) :
      Meets session (.select name quantity) (.selected outcome) events session
  | answered {name : String} {number : Int} {selector : Selector} {answer : Answer}
      (held : session name = some selector)
      (answered : selector.evaluate (.int number) = .ok answer) :
      Meets session (.evaluate name (.int number)) (.answered (.ok answer)) [] session
  | untold {name : String} {number : Int} {selector : Selector}
      (held : session name = some selector) (untold : selector.Untold number) :
      Meets session (.evaluate name (.int number)) (.answered (.error (.unwritable .wide))) []
        session
  | unanswered {name : String} {quantity : Value} {selector : Selector}
      (held : session name = some selector) (strange : ∀ number, quantity ≠ .int number) :
      Meets session (.evaluate name quantity) (.answered (.error (.quantity quantity))) [] session
  | compared {name other : String} {first second : Selector} (held : session name = some first)
      (beside : session other = some second) :
      Meets session (.compare name other) (.compared (first.Same second)) [] session
  | described {name : String} {selector : Selector} (held : session name = some selector) :
      Meets session (.describe name) (.described selector.described) [] session
  | vacant {command : Command} {name : String} (uses : name ∈ command.uses)
      (absent : session name = none) : Meets session command .vacant [] session

inductive Runs : Session → List Command → List Reply → List Event → Session → Prop where
  | nil {session : Session} : Runs session [] [] [] session
  | cons {session next final : Session} {command : Command} {commands : List Command}
      {reply : Reply} {replies : List Reply} {events more : List Event}
      (meets : Meets decoder session command reply events next)
      (rest : Runs next commands replies more final) :
      Runs session (command :: commands) (reply :: replies) (events ++ more) final

variable {decoder} {command : Command} {reply : Reply} {events : List Event}

theorem Meets.holds (meets : Meets decoder session command reply events next)
    (reads : ∀ formula : Formula, formula.Known Formula.Writable → kind formula)
    (given : command.Gives kind) (holds : session.Holds kind) : next.Holds kind := by
  -- Only two commands hold another tree: one that was read, or one that was given.
  induction meets with
  | compiled trims read made => exact holds.hold (made.tree_eq ▸ reads _ read.known)
  | built made => exact holds.hold (made.tree_eq ▸ given)
  | configured compiled ih => exact ih trivial
  | decoded valid configured ih => exact ih trivial
  | _ => exact holds

theorem Runs.holds {commands : List Command} {replies : List Reply}
    (runs : Runs decoder session commands replies events next)
    (reads : ∀ formula : Formula, formula.Known Formula.Writable → kind formula)
    (given : ∀ command ∈ commands, command.Gives kind) (holds : session.Holds kind) :
    next.Holds kind := by
  induction runs with
  | nil => exact holds
  | cons meets rest ih =>
      obtain ⟨first, others⟩ := List.forall_mem_cons.mp given
      exact ih others (meets.holds reads first holds)

end

attribute [local instance] Writing.standard

end Session

end PluralRule
