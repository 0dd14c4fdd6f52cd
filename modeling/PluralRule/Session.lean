import PluralRule.Settings

/-!
Sessions: selectors are made, held under names and used, one command after the
other. What the selectors record is collected in the order of the commands, and
a command that makes no selector leaves the session as it is.
-/

namespace PluralRule

abbrev Session := String → Option Selector

inductive Command where
  | compile (name formula : String) (count : Value) (limits : Limits)
  /-- The settings may have been changed since they were decoded. -/
  | configure (name : String) (settings : Settings)
  | decode (name : String) (record : Record)
  | build (name formula : String) (count : Value) (tree : Formula)
  | select (name : String) (quantity : Value)
  | evaluate (name : String) (quantity : Value)
  | compare (name other : String)
  | describe (name : String)

def Command.uses : Command → List String
  | .select name _ => [name]
  | .evaluate name _ => [name]
  | .compare name other => [name, other]
  | .describe name => [name]
  | _ => []

inductive Reply where
  | made (selector : Selector)
  | objected (objection : Objection)
  | rejected (rejections : List Rejection)
  | selected (outcome : Except Refusal (Option Int))
  | answered (outcome : Except Refusal Answer)
  | compared (same : Bool)
  | described (text : Option String)
  /-- Nothing is held under a name that the command uses. -/
  | vacant

namespace Session

def empty : Session := fun _ => none

def hold (session : Session) (name : String) (selector : Selector) : Session :=
  fun other => if other = name then some selector else session other

/-- A selector that was made takes the place of the one that was held under the name. -/
def keep (session : Session) (name : String) (outcome : Recorded (Except Objection Selector)) :
    Recorded (Reply × Session) :=
  match outcome.result with
  | .ok selector => ⟨(.made selector, session.hold name selector), outcome.events⟩
  | .error objection => ⟨(.objected objection, session), outcome.events⟩

def use (session : Session) (name : String) (work : Selector → Recorded Reply) :
    Recorded (Reply × Session) :=
  match session name with
  | some selector => ⟨((work selector).result, session), (work selector).events⟩
  | none => ⟨(.vacant, session), []⟩

def perform [Writing] (decoder : Decoder) (session : Session) :
    Command → Recorded (Reply × Session)
  | .compile name formula count limits =>
      session.keep name (Selector.compile limits formula count)
  | .configure name settings => session.keep name settings.selector
  | .decode name record =>
      match decoder record with
      | .ok settings => session.keep name settings.selector
      | .error rejections => ⟨(.rejected rejections, session), []⟩
  | .build name formula count tree =>
      session.keep name ⟨(Selector.build formula count tree).mapError .refusal, []⟩
  | .select name quantity =>
      session.use name fun selector =>
        ⟨.selected (selector.select quantity).result, (selector.select quantity).events⟩
  | .evaluate name quantity =>
      session.use name fun selector => ⟨.answered (selector.evaluate quantity), []⟩
  | .compare name other =>
      session.use name fun selector =>
        match session other with
        | some compared => ⟨.compared (selector.Same compared), []⟩
        | none => ⟨.vacant, []⟩
  | .describe name => session.use name fun selector => ⟨.described selector.described, []⟩

def run [Writing] (decoder : Decoder) (session : Session) :
    List Command → Recorded (List Reply × Session)
  | [] => ⟨([], session), []⟩
  | command :: rest =>
      let first := session.perform decoder command
      let others := run decoder first.result.2 rest
      ⟨(first.result.1 :: others.result.1, others.result.2), first.events ++ others.events⟩

end Session

end PluralRule
