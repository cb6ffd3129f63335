import TypeAtlas.Json.Message

/-!
# Log events

What happens besides the result is told in events: a level, the channel that tells it, a name, and
fields.  `Logged` is a result together with the events on the way to it; no function reads events,
so what is logged never changes what is computed.

`Context` holds the fields that are added to every event; a field of the event's own comes first.
-/

namespace TypeAtlas

/-- How serious an event is. -/
inductive Level where
  | debug | info | warning | error | critical
  deriving Repr, DecidableEq

namespace Level

def name : Level → String
  | .debug => "debug"
  | .info => "info"
  | .warning => "warning"
  | .error => "error"
  | .critical => "critical"

def rank : Level → Nat
  | .debug => 10
  | .info => 20
  | .warning => 30
  | .error => 40
  | .critical => 50

end Level

/-- The part of the program that tells an event. -/
inductive Channel where
  | backends | grammars | batches | scans | files | history
  | named (name : String)
  deriving Repr, DecidableEq

/-- The name of a channel; one without a name is the root of all others. -/
def Channel.name : Channel → String
  | .backends => "backends"
  | .grammars => "grammars"
  | .batches => "batches"
  | .scans => "scans"
  | .files => "files"
  | .history => "history"
  | .named name => if name = "" then "root" else name

/-- Something that happened. -/
structure Event where
  level : Level
  channel : Channel
  name : String
  fields : List (String × Json) := []
  deriving Repr

/-- Fields that are added to every event, in the order in which they were bound. -/
abbrev Context := List (String × Json)

namespace Context

/-- With a field, in the place of an earlier one of the same key. -/
def bind (context : Context) (key : String) (value : Json) : Context :=
  if context.any fun field => field.1 = key then
    context.map fun field => if field.1 = key then (key, value) else field
  else context ++ [(key, value)]

/-- Without the fields of some keys, or without any fields if no key is given. -/
def clear (context : Context) (keys : List String) : Context :=
  if keys.isEmpty then [] else context.filter fun field => !keys.contains field.1

end Context

/-- The fields of an event together with those of the context that the event does not have. -/
def Event.allFields (event : Event) (context : Context) : List (String × Json) :=
  event.fields ++ context.filter fun field => !event.fields.any fun own => own.1 = field.1

def Event.within (event : Event) (context : Context) : Event :=
  { event with fields := event.allFields context }

/-- A result and the events on the way to it. -/
structure Logged (α : Type) where
  value : α
  events : List Event := []

namespace Logged

instance : Monad Logged where
  pure value := ⟨value, []⟩
  bind first next :=
    let rest := next first.value
    ⟨rest.value, first.events ++ rest.events⟩

def tell (level : Level) (channel : Channel) (name : String)
    (fields : List (String × Json) := []) : Logged Unit :=
  ⟨(), [⟨level, channel, name, fields⟩]⟩

def within (context : Context) (logged : Logged α) : Logged α :=
  ⟨logged.value, logged.events.map fun event => event.within context⟩

@[simp] theorem value_pure (value : α) : (pure value : Logged α).value = value := rfl

@[simp] theorem value_bind (first : Logged α) (next : α → Logged β) :
    (first >>= next).value = (next first.value).value := rfl

@[simp] theorem value_within (context : Context) (logged : Logged α) :
    (logged.within context).value = logged.value := rfl

instance : LawfulMonad Logged :=
  LawfulMonad.mk' Logged
    (fun logged => congrArg (Logged.mk logged.value) (List.append_nil logged.events))
    (fun _ _ => rfl)
    (fun first next last => congrArg (Logged.mk (last (next first.value).value).value)
      (List.append_assoc first.events (next first.value).events
        (last (next first.value).value).events))

theorem value_mapM (step : α → Logged β) (items : List α) :
    (items.mapM step).value = items.map fun item => (step item).value := by
  induction items with
  | nil => rfl
  | cons item items ih =>
      rw [List.mapM_cons, value_bind, value_bind, value_pure, ih, List.map_cons]

end Logged
end TypeAtlas
