import SnippetAudit.Embedding.Slot

/-!
A slot that several callers share.

A call is made of sections. In a section a caller changes the phase in one go, or does something for
which it needs no slot, such as loading a model or embedding with one. Sections of different callers
follow one another in any order: a caller may be anywhere in its call while others go on.

A caller that finds the slot loading or evicting waits. Whoever ends that phase wakes all that wait, in
the same section after a load that ended by itself, and else in a section of its own. A caller may also
wake up by itself. Either way it asks again.
-/

namespace SnippetAudit.Embedding

/-- What a caller may ask of a slot. -/
inductive Request where
  | embed (code : String)
  | unload
  | cleanup
  deriving DecidableEq

/-- What a caller gets. -/
inductive Reply where
  | embedded (a : Slot.Answer)
  /-- Whether a model was unloaded. -/
  | unloaded (done : Bool)

/-- Where a caller is in its call: what its next section will be. -/
inductive Point where
  /-- No call is under way; the last one got this reply, if there was one. -/
  | away (last : Option Reply)
  /-- About to ask for the model. -/
  | asking (code : String)
  /-- Waits for another caller. -/
  | waiting (code : String)
  /-- Has claimed the load, and the backend loads. -/
  | loading (code : String)
  /-- The load has ended, and its outcome is to be published. -/
  | publishing (code : String) (outcome : Load)
  /-- Has the model, and embeds. -/
  | embedding (code : String) (m : Model)
  /-- About to look whether the model was idle for too long. -/
  | checking
  /-- About to take the model out; `idle` if this is because it was found idle. -/
  | taking (idle : Bool)
  /-- Has taken the model out, and drops it. -/
  | evicting
  /-- Has emptied the slot, and is about to wake those that wait. -/
  | waking (reply : Reply)

/-- What a section comes to. -/
structure Section where
  slot : Slot
  next : Point
  /-- Whether all that wait are woken. -/
  wakes : Bool := false

/-- The first point of a call. A slot that is disabled embeds nothing. -/
def Request.start (slot : Slot) : Request → Point
  | embed code => if slot.enabled then .asking code else .away (some (.embedded .none))
  | unload => .taking false
  | cleanup => .checking

namespace Point

/-- The next section of a caller. One that waits, or has nothing to do, leaves everything as it is. -/
def act (now : Nat) (slot : Slot) : Point → Section
  | away last => { slot, next := .away last }
  | waiting code => { slot, next := .waiting code }
  | asking code =>
    match slot.phase.claim now with
    | (.ready m, phase) => { slot := { slot with phase }, next := .embedding code m }
    | (.load, phase) => { slot := { slot with phase }, next := .loading code }
    | (.wait, phase) => { slot := { slot with phase }, next := .waiting code }
  | loading code =>
    { slot := { slot with loads := slot.loads + 1 }
      next := .publishing code (slot.backend slot.loads) }
  | publishing code outcome =>
    let slot := { slot with phase := .publish now outcome }
    match outcome with
    | .model m => { slot, next := .embedding code m, wakes := true }
    | .failed => { slot, next := .away (some (.embedded .none)), wakes := true }
    | .crashed => { slot, next := .waking (.embedded .crashed) }
  | embedding code m => { slot, next := .away (some (.embedded (Slot.answer m code))) }
  | checking =>
    if slot.phase.isIdle slot.idleTimeout now then { slot, next := .taking true }
    else { slot, next := .away (some (.unloaded false)) }
  | taking _ =>
    match slot.phase.take with
    | (true, phase) => { slot := { slot with phase }, next := .evicting }
    | (false, phase) => { slot := { slot with phase }, next := .away (some (.unloaded false)) }
  | evicting => { slot := { slot with phase := .reset }, next := .waking (.unloaded true) }
  | waking reply => { slot, next := .away (some reply), wakes := true }

/-- Whoever waits asks again. -/
def woken : Point → Point
  | waiting code => .asking code
  | other => other

end Point

/-- A slot, the time in milliseconds, and where each caller is. -/
structure Shared (ι : Type) where
  slot : Slot
  now : Nat
  point : ι → Point

/-- What may happen next. -/
inductive Event (ι : Type) where
  /-- A caller makes a call, if it has none under way. -/
  | call (i : ι) (r : Request)
  /-- A caller does its next section. -/
  | go (i : ι)
  /-- A caller that waits wakes up by itself. -/
  | stir (i : ι)
  /-- Time goes by. -/
  | tick (span : Nat)
  deriving DecidableEq

/-- The caller that does something. -/
def Event.caller? {ι : Type} : Event ι → Option ι
  | call i _ | go i | stir i => some i
  | tick _ => none

namespace Shared

variable {ι : Type}

/-- The slot that a configuration describes, before anybody called. -/
def start (backend : Backend) (c : Config.Model) (now : Nat) : Shared ι :=
  { slot := .new backend c, now, point := fun _ => .away none }

variable [DecidableEq ι]

/-- A caller did a section. -/
def did (s : Shared ι) (i : ι) (r : Section) : Shared ι :=
  { s with
    slot := r.slot
    point := fun j => if j = i then r.next else if r.wakes then (s.point j).woken else s.point j }

/-- What comes of an event. -/
def after (s : Shared ι) : Event ι → Shared ι
  | .call i r =>
    match s.point i with
    | .away _ => s.did i { slot := s.slot, next := r.start s.slot }
    | _ => s
  | .go i => s.did i ((s.point i).act s.now s.slot)
  | .stir i =>
    match s.point i with
    | .waiting code => s.did i { slot := s.slot, next := .asking code }
    | _ => s
  | .tick span => { s with now := s.now + span }

/-- What comes of some events, one after the other. -/
def run (s : Shared ι) (es : List (Event ι)) : Shared ι := es.foldl after s

end Shared

end SnippetAudit.Embedding
