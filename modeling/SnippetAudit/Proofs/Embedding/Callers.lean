import Mathlib.Logic.ExistsUnique
import Mathlib.Tactic.ByContra
import SnippetAudit.Embedding.Callers

/-!
Callers of one slot do not get in one another's way.

A caller that has claimed a load, or has taken the model out, has a duty: to end the phase on which the
others wait. The phase shows which duty there is, and exactly one caller has it (`Owned`). Hence there is
never more than one load under way, no other caller touches the phase meanwhile, and a model that was
published stays until somebody takes it out to unload it.

Whoever waits is woken: some caller is going to wake all that wait, within three sections of its own,
whatever the others do (`exists_woken`).

All of this follows from what one section does, seen from its caller alone (`Point.Keeps`).
-/

namespace SnippetAudit.Embedding

/-- What a caller has taken upon itself: to end a load, or an eviction. -/
inductive Duty where
  | load
  | evict
  deriving DecidableEq

/-- The duty that a phase stands for. -/
def Phase.duty? : Phase → Option Duty
  | loading => some .load
  | evicting => some .evict
  | unloaded | loaded _ _ => none

theorem Phase.duty?_eq_load_iff {φ : Phase} : φ.duty? = some .load ↔ φ = .loading := by
  cases φ <;> simp [duty?]

theorem Phase.duty?_eq_evict_iff {φ : Phase} : φ.duty? = some .evict ↔ φ = .evicting := by
  cases φ <;> simp [duty?]

namespace Point

/-- The duty of a caller: between claiming a load and publishing its outcome, and between taking the model
out and emptying the slot. -/
def duty? : Point → Option Duty
  | loading _ | publishing _ _ => some .load
  | evicting => some .evict
  | away _ | asking _ | waiting _ | embedding _ _ | checking | taking _ | waking _ => none

/-- The most sections until a caller wakes those that wait; zero if it is not going to. -/
def untilWake : Point → Nat
  | loading _ => 3
  | publishing _ _ | evicting => 2
  | waking _ => 1
  | away _ | asking _ | waiting _ | embedding _ _ | checking | taking _ => 0

@[simp] theorem duty?_woken (p : Point) : p.woken.duty? = p.duty? := by
  cases p <;> rfl

theorem untilWake_le (p : Point) : p.untilWake ≤ 3 := by
  cases p <;> simp [untilWake]

theorem untilWake_pos {p : Point} {d : Duty} (h : p.duty? = some d) : 0 < p.untilWake := by
  cases p <;> cases h <;> simp [untilWake]

/-- A caller that is going to wake others does not wait itself. -/
theorem woken_of_untilWake_pos {p : Point} (h : 0 < p.untilWake) : p.woken = p := by
  cases p with
  | waiting code => cases h
  | _ => rfl

theorem woken_ne_waiting (p : Point) (code : String) : p.woken ≠ .waiting code := by
  cases p <;> simp [woken]

end Point

/-! ### One section -/

/-- How a section changes the duty of its caller and the phase. -/
inductive Handover (φ φ' : Phase) (p p' : Point) : Prop
  /-- The caller keeps the duty it has, or has none. -/
  | keep : φ'.duty? = φ.duty? → p'.duty? = p.duty? → Handover φ φ' p p'
  /-- The caller takes on a duty that nobody has. -/
  | takeOn (d : Duty) : φ.duty? = none → φ'.duty? = some d → p'.duty? = some d →
      Handover φ φ' p p'
  /-- The caller lays its duty down. -/
  | layDown (d : Duty) : φ'.duty? = none → p.duty? = some d → p'.duty? = none → Handover φ φ' p p'

/-- What every section does, seen from its caller. -/
structure Point.Keeps (slot : Slot) (p : Point) (r : Section) : Prop where
  handover : Handover slot.phase r.slot.phase p r.next
  /-- Only a phase that nobody has to end is changed by a caller without a duty. -/
  phase : slot.phase.duty? ≠ none → p.duty? = none → r.slot.phase = slot.phase
  /-- A model stays unless it is taken out to be unloaded. -/
  model : ∀ m u, slot.phase = .loaded m u → p.duty? = none →
    (∃ u', r.slot.phase = .loaded m u') ∨
      (∃ idle, p = .taking idle) ∧ r.slot.phase = .evicting ∧ r.next = .evicting
  /-- A caller waits only for a duty to be done. -/
  waits : ∀ code, r.next = .waiting code → r.wakes = false ∧
    (p = .waiting code ∨ slot.phase.duty? ≠ none)
  /-- A caller that waits does nothing but wait or ask again. -/
  waited : ∀ code, p = .waiting code → r.next = .waiting code ∨ r.next = .asking code
  /-- A caller that is going to wake others comes closer to it. -/
  wakes : 0 < p.untilWake → r.wakes = true ∨ 0 < r.next.untilWake ∧ r.next.untilWake < p.untilWake

namespace Point

variable {slot : Slot} {p : Point} {r : Section}

/-- A section that leaves the phase and the duty of its caller as they are. -/
theorem Keeps.of_same (phase : r.slot.phase = slot.phase) (duty : r.next.duty? = p.duty?)
    (waits : ∀ code, r.next = .waiting code → r.wakes = false ∧
      (p = .waiting code ∨ slot.phase.duty? ≠ none))
    (waited : ∀ code, p = .waiting code → r.next = .waiting code ∨ r.next = .asking code)
    (wakes : 0 < p.untilWake →
      r.wakes = true ∨ 0 < r.next.untilWake ∧ r.next.untilWake < p.untilWake) : p.Keeps slot r where
  handover := .keep (by rw [phase]) duty
  phase _ _ := phase
  model m u loaded _ := .inl ⟨u, by rw [phase, loaded]⟩
  waits := waits
  waited := waited
  wakes := wakes

/-- A section in which its caller ends the phase that is its duty. -/
theorem Keeps.of_layDown {d : Duty} (duty : p.duty? = some d) (ended : r.slot.phase.duty? = none)
    (free : r.next.duty? = none) (busy : ∀ code, r.next ≠ .waiting code)
    (wakes : r.wakes = true ∨ 0 < r.next.untilWake ∧ r.next.untilWake < p.untilWake) :
    p.Keeps slot r where
  handover := .layDown d ended duty free
  phase := by simp [duty]
  model := by simp [duty]
  waits code waiting := absurd waiting (busy code)
  waited := by
    rintro code rfl
    cases duty
  wakes _ := wakes

theorem keeps_asking (now : Nat) (code : String) :
    (asking code).Keeps slot ((asking code).act now slot) := by
  cases h : slot.phase with
  | unloaded =>
    have claimed : (asking code).act now slot =
        { slot := { slot with phase := .loading }, next := .loading code } := by
      simp [act, h, Phase.claim]
    rw [claimed]
    exact {
      handover := .takeOn .load (by simp [h, Phase.duty?]) rfl rfl
      phase := by simp [h, Phase.duty?]
      model := by simp [h]
      waits := by simp
      waited := by simp
      wakes := by simp [untilWake] }
  | loaded m u =>
    have ready : (asking code).act now slot =
        { slot := { slot with phase := .loaded m now }, next := .embedding code m } := by
      simp [act, h, Phase.claim]
    rw [ready]
    exact {
      handover := .keep (by simp [h, Phase.duty?]) rfl
      phase := by simp [h, Phase.duty?]
      model := by simp [h]
      waits := by simp
      waited := by simp
      wakes := by simp [untilWake] }
  | loading =>
    refine .of_same ?_ ?_ ?_ ?_ ?_ <;> simp [act, h, Phase.claim, duty?, untilWake, Phase.duty?]
  | evicting =>
    refine .of_same ?_ ?_ ?_ ?_ ?_ <;> simp [act, h, Phase.claim, duty?, untilWake, Phase.duty?]

theorem keeps_taking (now : Nat) (idle : Bool) :
    (taking idle).Keeps slot ((taking idle).act now slot) := by
  cases h : slot.phase with
  | loaded m u =>
    have taken : (taking idle).act now slot =
        { slot := { slot with phase := .evicting }, next := .evicting } := by
      simp [act, h, Phase.take]
    rw [taken]
    exact {
      handover := .takeOn .evict (by simp [h, Phase.duty?]) rfl rfl
      phase := by simp [h, Phase.duty?]
      model := by simp
      waits := by simp
      waited := by simp
      wakes := by simp [untilWake] }
  | _ => refine .of_same ?_ ?_ ?_ ?_ ?_ <;> simp [act, h, Phase.take, duty?, untilWake]

/-- **What every section does, seen from its caller.** -/
theorem keeps_act (now : Nat) (slot : Slot) (p : Point) : p.Keeps slot (p.act now slot) := by
  cases p with
  | asking code => exact keeps_asking now code
  | taking idle => exact keeps_taking now idle
  | publishing code outcome =>
    cases outcome <;> refine .of_layDown (d := .load) rfl rfl rfl ?_ ?_ <;> simp [act, untilWake]
  | evicting => refine .of_layDown (d := .evict) rfl rfl rfl ?_ ?_ <;> simp [act, untilWake]
  | checking =>
    by_cases idle : slot.phase.isIdle slot.idleTimeout now = true
    · refine .of_same ?_ ?_ ?_ ?_ ?_ <;> simp [act, idle, duty?, untilWake]
    · refine .of_same ?_ ?_ ?_ ?_ ?_ <;> simp [act, idle, duty?, untilWake]
  | _ => refine .of_same ?_ ?_ ?_ ?_ ?_ <;> simp [act, duty?, untilWake]

/-- A call begins in the same way. -/
theorem keeps_start (last : Option Reply) (q : Request) :
    (away last).Keeps slot { slot, next := q.start slot } := by
  cases q with
  | embed code =>
    by_cases enabled : slot.enabled = true
    · refine .of_same ?_ ?_ ?_ ?_ ?_ <;> simp [Request.start, enabled, duty?, untilWake]
    · refine .of_same ?_ ?_ ?_ ?_ ?_ <;> simp [Request.start, enabled, duty?, untilWake]
  | _ => refine .of_same ?_ ?_ ?_ ?_ ?_ <;> simp [Request.start, duty?, untilWake]

/-- So does a caller that wakes up by itself. -/
theorem keeps_stir (code : String) :
    (waiting code).Keeps slot { slot, next := .asking code } := by
  refine .of_same ?_ ?_ ?_ ?_ ?_ <;> simp [duty?, untilWake]

end Point

/-! ### One event -/

namespace Shared

variable {ι : Type} [DecidableEq ι] {s : Shared ι} {i j : ι} {r : Section}

@[simp] theorem did_slot : (s.did i r).slot = r.slot := rfl

@[simp] theorem did_point_self : (s.did i r).point i = r.next := by
  simp [did]

theorem did_point_of_ne (other : j ≠ i) :
    (s.did i r).point j = if r.wakes then (s.point j).woken else s.point j := by
  simp [did, other]

theorem duty?_did_of_ne (other : j ≠ i) : ((s.did i r).point j).duty? = (s.point j).duty? := by
  rw [did_point_of_ne other]
  split <;> simp

/-- The section that an event is, with its caller. -/
inductive Does (s : Shared ι) : Event ι → ι → Section → Prop
  | starts {k : ι} {last : Option Reply} (q : Request) : s.point k = .away last →
      Does s (.call k q) k { slot := s.slot, next := q.start s.slot }
  | acts (k : ι) : Does s (.go k) k ((s.point k).act s.now s.slot)
  | stirs {k : ι} {code : String} : s.point k = .waiting code →
      Does s (.stir k) k { slot := s.slot, next := .asking code }

/-- **An event is a section of its caller**, or leaves the slot and all callers as they are. -/
theorem does_or_same (s : Shared ι) (e : Event ι) :
    ((∀ i, e ≠ .go i) ∧ (s.after e).slot = s.slot ∧ (s.after e).point = s.point) ∨
      ∃ i r, s.Does e i r ∧ s.after e = s.did i r := by
  cases e with
  | call i q =>
    cases h : s.point i with
    | away last => exact .inr ⟨i, _, .starts q h, by simp [after, h]⟩
    | _ => exact .inl (by simp [after, h])
  | go i => exact .inr ⟨i, _, .acts i, rfl⟩
  | stir i =>
    cases h : s.point i with
    | waiting code => exact .inr ⟨i, _, .stirs h, by simp [after, h]⟩
    | _ => exact .inl (by simp [after, h])
  | tick span => exact .inl ⟨by simp, rfl, rfl⟩

/-- A section does what every section does, seen from its caller. -/
theorem after_cases (s : Shared ι) (e : Event ι) :
    ((∀ i, e ≠ .go i) ∧ (s.after e).slot = s.slot ∧ (s.after e).point = s.point) ∨
      ∃ i r, e.caller? = some i ∧ (s.point i).Keeps s.slot r ∧ s.after e = s.did i r := by
  rcases s.does_or_same e with still | ⟨i, r, does, same⟩
  · exact .inl still
  · refine .inr ⟨i, r, ?_⟩
    cases does with
    | starts q h => exact ⟨rfl, h ▸ Point.keeps_start _ q, same⟩
    | acts => exact ⟨rfl, Point.keeps_act s.now s.slot (s.point i), same⟩
    | stirs h => exact ⟨rfl, h ▸ Point.keeps_stir _, same⟩

/-! ### Who has a duty -/

/-- The phase shows which duty there is, and exactly one caller has it. -/
structure Owned (s : Shared ι) : Prop where
  phase_eq : ∀ i d, (s.point i).duty? = some d → s.slot.phase.duty? = some d
  alone : ∀ i j, (s.point i).duty? ≠ none → (s.point j).duty? ≠ none → i = j
  owner : ∀ d, s.slot.phase.duty? = some d → ∃ i, (s.point i).duty? = some d

omit [DecidableEq ι] in
theorem owned_start (backend : Backend) (c : Config.Model) (now : Nat) :
    (start backend c now : Shared ι).Owned where
  phase_eq i d duty := by cases duty
  alone i j duty := absurd rfl duty
  owner d duty := by cases duty

/-- **A section keeps it so.** -/
theorem Owned.did (owned : s.Owned) (keeps : (s.point i).Keeps s.slot r) : (s.did i r).Owned := by
  cases keeps.handover with
  | keep phase duty =>
    have same (j : ι) : ((s.did i r).point j).duty? = (s.point j).duty? := by
      by_cases h : j = i
      · rw [h, did_point_self, duty]
      · exact duty?_did_of_ne h
    constructor
    · intro j d
      rw [same, did_slot, phase]
      exact owned.phase_eq j d
    · intro j k
      rw [same, same]
      exact owned.alone j k
    · intro d
      rw [did_slot, phase]
      simp only [same]
      exact owned.owner d
  | takeOn d free taken own =>
    -- Nobody had a duty, so nobody else has one now.
    have others {j : ι} (h : j ≠ i) : ((s.did i r).point j).duty? = none := by
      rw [duty?_did_of_ne h, Option.eq_none_iff_forall_ne_some]
      intro d' duty
      rw [owned.phase_eq j d' duty] at free
      cases free
    constructor
    · intro j d' duty
      by_cases h : j = i
      · rw [h, did_point_self, own] at duty
        rw [did_slot, taken, duty]
      · rw [others h] at duty
        cases duty
    · intro j k duty duty'
      have first : j = i := by
        by_contra h
        exact duty (others h)
      have second : k = i := by
        by_contra h
        exact duty' (others h)
      rw [first, second]
    · intro d' phase
      rw [did_slot, taken] at phase
      exact ⟨i, by rw [did_point_self, own, phase]⟩
  | layDown d ended own free =>
    -- Nobody else had a duty, so nobody has one now.
    have nobody (j : ι) : ((s.did i r).point j).duty? = none := by
      by_cases h : j = i
      · rw [h, did_point_self, free]
      · rw [duty?_did_of_ne h]
        by_contra duty
        exact h (owned.alone j i duty (by simp [own]))
    constructor
    · intro j d' duty
      rw [nobody] at duty
      cases duty
    · intro j k duty
      exact absurd (nobody j) duty
    · intro d' phase
      rw [did_slot, ended] at phase
      cases phase

theorem Owned.after (owned : s.Owned) (e : Event ι) : (s.after e).Owned := by
  rcases after_cases s e with ⟨-, slot, point⟩ | ⟨i, r, -, keeps, same⟩
  · constructor
    · rw [slot, point]
      exact owned.phase_eq
    · rw [point]
      exact owned.alone
    · rw [slot, point]
      exact owned.owner
  · rw [same]
    exact owned.did keeps

/-- **A caller with a duty is not disturbed.** No other caller touches the phase. -/
theorem Owned.phase_after (owned : s.Owned) {e : Event ι} (duty : (s.point i).duty? ≠ none)
    (other : e.caller? ≠ some i) :
    (s.after e).slot.phase = s.slot.phase ∧ (s.after e).point i = s.point i := by
  rcases after_cases s e with ⟨-, slot, point⟩ | ⟨j, r, who, keeps, same⟩
  · rw [slot, point]
    exact ⟨rfl, rfl⟩
  · have apart : i ≠ j := by
      rintro rfl
      exact other who
    obtain ⟨d, own⟩ := Option.ne_none_iff_exists'.mp duty
    have free : (s.point j).duty? = none := by
      by_contra h
      exact apart (owned.alone i j duty h)
    have busy : s.slot.phase.duty? ≠ none := by
      simp [owned.phase_eq i d own]
    rw [same]
    refine ⟨keeps.phase busy free, ?_⟩
    rw [did_point_of_ne apart, Point.woken_of_untilWake_pos (Point.untilWake_pos own), ite_self]

/-- **A model stays in the slot until a caller takes it out** to unload it. -/
theorem Owned.model_after (owned : s.Owned) (e : Event ι) {m : Model} {u : Nat}
    (loaded : s.slot.phase = .loaded m u) :
    (∃ u', (s.after e).slot.phase = .loaded m u') ∨
      ∃ i idle, e.caller? = some i ∧ s.point i = .taking idle ∧
        (s.after e).slot.phase = .evicting ∧ (s.after e).point i = .evicting := by
  rcases after_cases s e with ⟨-, slot, -⟩ | ⟨i, r, who, keeps, same⟩
  · rw [slot]
    exact .inl ⟨u, loaded⟩
  · have free : (s.point i).duty? = none := by
      rw [Option.eq_none_iff_forall_ne_some]
      intro d duty
      have phase := owned.phase_eq i d duty
      rw [loaded] at phase
      cases phase
    rw [same, did_slot]
    rcases keeps.model m u loaded free with kept | ⟨⟨idle, taking⟩, evicting, next⟩
    · exact .inl kept
    · exact .inr ⟨i, idle, who, taking, evicting, by rw [did_point_self, next]⟩

/-! ### Who waits -/

/-- Whoever waits, there is a caller that is going to wake it. -/
def Attended (s : Shared ι) : Prop :=
  ∀ i code, s.point i = .waiting code → ∃ j, 0 < (s.point j).untilWake

/-- A caller that is going to wake others still is, unless it just did. -/
theorem untilWake_did_pos (keeps : (s.point i).Keeps s.slot r) (quiet : r.wakes = false)
    (pos : 0 < (s.point j).untilWake) : 0 < ((s.did i r).point j).untilWake := by
  by_cases h : j = i
  · subst h
    rw [did_point_self]
    rcases keeps.wakes pos with wakes | ⟨pos, -⟩
    · rw [quiet] at wakes
      cases wakes
    · exact pos
  · simpa [did_point_of_ne h, quiet] using pos

theorem Attended.did (attended : s.Attended) (owned : s.Owned)
    (keeps : (s.point i).Keeps s.slot r) : (s.did i r).Attended := by
  intro k code waiting
  have found : r.wakes = false ∧ ∃ j, 0 < (s.point j).untilWake := by
    by_cases h : k = i
    · subst h
      rw [did_point_self] at waiting
      obtain ⟨quiet, old | busy⟩ := keeps.waits code waiting
      · exact ⟨quiet, attended k code old⟩
      · obtain ⟨d, phase⟩ := Option.ne_none_iff_exists'.mp busy
        obtain ⟨j, duty⟩ := owned.owner d phase
        exact ⟨quiet, j, Point.untilWake_pos duty⟩
    · rw [did_point_of_ne h] at waiting
      by_cases wakes : r.wakes = true
      · rw [if_pos wakes] at waiting
        exact absurd waiting (Point.woken_ne_waiting _ code)
      · rw [if_neg wakes] at waiting
        exact ⟨by simpa using wakes, attended k code waiting⟩
  obtain ⟨quiet, j, pos⟩ := found
  exact ⟨j, untilWake_did_pos keeps quiet pos⟩

theorem Attended.after (attended : s.Attended) (owned : s.Owned) (e : Event ι) :
    (s.after e).Attended := by
  rcases after_cases s e with ⟨-, -, point⟩ | ⟨i, r, -, keeps, same⟩
  · rw [Attended, point]
    exact attended
  · rw [same]
    exact attended.did owned keeps

/-- While a caller waits, the one that is going to wake it comes closer with each of its sections. -/
theorem waiting_after {code : String} (waiting : s.point i = .waiting code)
    (pos : 0 < (s.point j).untilWake) (e : Event ι) :
    (s.after e).point i = .asking code ∨
      (s.after e).point i = .waiting code ∧ 0 < ((s.after e).point j).untilWake ∧
        ((s.after e).point j).untilWake + (if e = .go j then 1 else 0) ≤ (s.point j).untilWake := by
  have apart : j ≠ i := by
    rintro rfl
    rw [waiting] at pos
    cases pos
  rcases after_cases s e with ⟨idle, -, point⟩ | ⟨k, r, who, keeps, same⟩
  · simp [point, waiting, pos, idle j]
  · rw [same]
    have here : (s.did k r).point i = .asking code ∨
        (s.did k r).point i = .waiting code ∧ r.wakes = false := by
      by_cases h : i = k
      · subst h
        rw [did_point_self]
        rcases keeps.waited code waiting with next | next
        · exact .inr ⟨next, (keeps.waits code next).1⟩
        · exact .inl next
      · rw [did_point_of_ne h, waiting]
        by_cases wakes : r.wakes = true
        · simp [wakes, Point.woken]
        · simp [wakes]
    rcases here with asks | ⟨waits, quiet⟩
    · exact .inl asks
    · refine .inr ⟨waits, untilWake_did_pos keeps quiet pos, ?_⟩
      by_cases h : j = k
      · subst h
        have closer := keeps.wakes pos
        simp only [quiet, Bool.false_eq_true, false_or] at closer
        rw [did_point_self]
        split <;> omega
      · have another : e ≠ .go j := by
          rintro rfl
          exact h (Option.some.inj who)
        simp [did_point_of_ne h, quiet, another]

/-! ### Whole runs -/

@[simp] theorem run_nil (s : Shared ι) : s.run [] = s := rfl

@[simp] theorem run_cons (s : Shared ι) (e : Event ι) (es : List (Event ι)) :
    s.run (e :: es) = (s.after e).run es := rfl

theorem owned_attended_run (owned : s.Owned) (attended : s.Attended) (es : List (Event ι)) :
    (s.run es).Owned ∧ (s.run es).Attended := by
  induction es generalizing s with
  | nil => exact ⟨owned, attended⟩
  | cons e es ih => exact ih (owned.after e) (attended.after owned e)

/-- **Whoever waits is woken** as soon as a caller that is going to wake others has done the sections that
are left until then, whatever the others do. -/
theorem exists_woken {code : String} {es : List (Event ι)} (waiting : s.point i = .waiting code)
    (pos : 0 < (s.point j).untilWake) (enough : (s.point j).untilWake ≤ es.count (.go j)) :
    ∃ k ≤ es.length, (s.run (es.take k)).point i = .asking code := by
  induction es generalizing s with
  | nil =>
    rw [List.count_nil] at enough
    omega
  | cons e es ih =>
    rcases waiting_after waiting pos e with asks | ⟨waits, pos', closer⟩
    · exact ⟨1, by simp, by simpa using asks⟩
    · have left : ((s.after e).point j).untilWake ≤ es.count (.go j) := by
        rw [List.count_cons] at enough
        simp only [beq_iff_eq] at enough
        omega
      obtain ⟨k, inside, asks⟩ := ih waits pos' left
      exact ⟨k + 1, by simpa using inside, by simpa using asks⟩

/-- What callers of one slot may rely on. -/
structure Orderly (s : Shared ι) : Prop where
  /-- While the slot is loading, one caller is between claiming the load and publishing its outcome. -/
  loading : s.slot.phase = .loading → ∃! i, (s.point i).duty? = some .load
  not_loading : s.slot.phase ≠ .loading → ∀ i, (s.point i).duty? ≠ some .load
  /-- While it is evicting, one caller is between taking the model out and emptying the slot. -/
  evicting : s.slot.phase = .evicting → ∃! i, (s.point i).duty? = some .evict
  not_evicting : s.slot.phase ≠ .evicting → ∀ i, (s.point i).duty? ≠ some .evict
  /-- No two loads are under way. -/
  one_load : ∀ i j code code', s.point i = .loading code → s.point j = .loading code' → i = j
  /-- Nobody else touches a phase that a caller has to end. -/
  undisturbed : ∀ i e, (s.point i).duty? ≠ none → e.caller? ≠ some i →
    (s.after e).slot.phase = s.slot.phase ∧ (s.after e).point i = s.point i
  /-- A model stays until a caller takes it out to unload it. -/
  model : ∀ e m u, s.slot.phase = .loaded m u →
    (∃ u', (s.after e).slot.phase = .loaded m u') ∨
      ∃ i idle, e.caller? = some i ∧ s.point i = .taking idle ∧
        (s.after e).slot.phase = .evicting ∧ (s.after e).point i = .evicting
  /-- Whoever waits is woken within three sections of some caller, which is the one that has to end the
  phase if anybody has to. -/
  attended : ∀ i code, s.point i = .waiting code →
    ∃ j, (s.slot.phase.duty? ≠ none → (s.point j).duty? = s.slot.phase.duty?) ∧
      ∀ es : List (Event ι), 3 ≤ es.count (.go j) →
        ∃ k ≤ es.length, (s.run (es.take k)).point i = .asking code

omit [DecidableEq ι] in
theorem Owned.existsUnique (owned : s.Owned) {d : Duty} (phase : s.slot.phase.duty? = some d) :
    ∃! i, (s.point i).duty? = some d := by
  obtain ⟨i, duty⟩ := owned.owner d phase
  refine ⟨i, duty, ?_⟩
  intro j duty'
  exact owned.alone j i (by simp [duty']) (by simp [duty])

theorem Owned.orderly (owned : s.Owned) (attended : s.Attended) : s.Orderly where
  loading phase := owned.existsUnique (Phase.duty?_eq_load_iff.mpr phase)
  not_loading phase i duty := phase (Phase.duty?_eq_load_iff.mp (owned.phase_eq i _ duty))
  evicting phase := owned.existsUnique (Phase.duty?_eq_evict_iff.mpr phase)
  not_evicting phase i duty := phase (Phase.duty?_eq_evict_iff.mp (owned.phase_eq i _ duty))
  one_load i j code code' loads loads' :=
    owned.alone i j (by simp [loads, Point.duty?]) (by simp [loads', Point.duty?])
  undisturbed i e duty other := owned.phase_after duty other
  model e m u loaded := owned.model_after e loaded
  attended i code waiting := by
    have found : ∃ j, (s.slot.phase.duty? ≠ none → (s.point j).duty? = s.slot.phase.duty?) ∧
        0 < (s.point j).untilWake := by
      cases phase : s.slot.phase.duty? with
      | none =>
        obtain ⟨j, pos⟩ := attended i code waiting
        exact ⟨j, by simp, pos⟩
      | some d =>
        obtain ⟨j, duty⟩ := owned.owner d phase
        exact ⟨j, fun _ => duty, Point.untilWake_pos duty⟩
    obtain ⟨j, own, pos⟩ := found
    refine ⟨j, own, ?_⟩
    intro es enough
    exact exists_woken waiting pos (Nat.le_trans (s.point j).untilWake_le enough)

/-- **However the sections of callers follow one another, and however loads end, the slot is in order.** -/
theorem run_orderly (backend : Backend) (c : Config.Model) (now : Nat) (es : List (Event ι)) :
    ((start backend c now).run es).Orderly := by
  have nobody : (start backend c now : Shared ι).Attended := by
    intro i code waiting
    cases waiting
  obtain ⟨owned, attended⟩ := owned_attended_run (owned_start backend c now) nobody es
  exact owned.orderly attended

/-- A caller waits for the load of another. The load crashes, and the one that waited loads next. -/
example :
    ((start (fun _ => .crashed) {} 0).run [.call true (.embed "x"), .call false (.embed "y"),
      .go true, .go false, .go true, .go true, .go true, .go false]).point false = .loading "y" := rfl

end Shared

/-! ### A caller that is alone -/

/-- What a request comes to on a slot that nobody else uses. -/
def Request.answer (now : Nat) (slot : Slot) : Request → Reply × Slot
  | embed code => (.embedded (slot.embed now code).1, (slot.embed now code).2)
  | unload => (.unloaded slot.unload.1, slot.unload.2)
  | cleanup => (.unloaded (slot.cleanup now).1, (slot.cleanup now).2)

/-- Some sections of a caller, one after the other. -/
def Point.acts (now : Nat) : Nat → Slot → Point → Slot × Point
  | 0, slot, p => (slot, p)
  | n + 1, slot, p => acts now n (p.act now slot).slot (p.act now slot).next

namespace Point

variable (now n : Nat) (slot : Slot)

@[simp] theorem acts_away (last : Option Reply) : (away last).acts now n slot = (slot, away last) := by
  induction n with
  | zero => rfl
  | succ n ih => exact ih

theorem acts_succ (p : Point) :
    p.acts now (n + 1) slot = (p.act now slot).next.acts now n (p.act now slot).slot := rfl

theorem acts_taking (idle : Bool) (free : slot.phase.duty? = none) :
    (taking idle).acts now (n + 3) slot =
      (slot.unload.2, away (some (.unloaded slot.unload.1))) := by
  cases h : slot.phase with
  | unloaded => simp [acts_succ, act, Slot.unload, h, Phase.take]
  | loaded m u => simp [acts_succ, act, Slot.unload, h, Phase.take]
  | loading => simp [h, Phase.duty?] at free
  | evicting => simp [h, Phase.duty?] at free

theorem acts_asking (code : String) (enabled : slot.enabled = true)
    (free : slot.phase.duty? = none) :
    (asking code).acts now (n + 4) slot =
      ((slot.embed now code).2, away (some (.embedded (slot.embed now code).1))) := by
  cases h : slot.phase with
  | unloaded =>
    cases outcome : slot.backend slot.loads <;>
      simp [acts_succ, act, Slot.embed, enabled, h, Phase.claim, outcome]
  | loaded m u => simp [acts_succ, act, Slot.embed, enabled, h, Phase.claim]
  | loading => simp [h, Phase.duty?] at free
  | evicting => simp [h, Phase.duty?] at free

end Point

/-- The sections of a call make up the operation of the slot. -/
theorem Request.acts_start {slot : Slot} (free : slot.phase.duty? = none) (now : Nat) (q : Request) :
    (q.start slot).acts now 4 slot =
      ((q.answer now slot).2, .away (some (q.answer now slot).1)) := by
  cases q with
  | embed code =>
    cases enabled : slot.enabled with
    | true =>
      rw [start, if_pos enabled]
      exact Point.acts_asking now 0 slot code enabled free
    | false => simp [answer, start, Slot.embed, enabled]
  | unload => exact Point.acts_taking now 1 slot false free
  | cleanup =>
    cases idle : slot.phase.isIdle slot.idleTimeout now with
    | true =>
      have found : Point.checking.act now slot = { slot, next := .taking true } := by
        simp [Point.act, idle]
      rw [start, Point.acts_succ, found, Point.acts_taking now 0 slot true free]
      simp [answer, Slot.cleanup, idle]
    | false =>
      have used : Point.checking.act now slot =
          { slot, next := .away (some (.unloaded false)) } := by
        simp [Point.act, idle]
      rw [start, Point.acts_succ, used]
      simp [answer, Slot.cleanup, idle]

namespace Shared

variable {ι : Type} [DecidableEq ι] {s : Shared ι} {i : ι}

/-- While nobody else does anything, a caller does one section after the other. -/
theorem run_replicate_go (n : Nat) :
    ((s.run (List.replicate n (.go i))).slot, (s.run (List.replicate n (.go i))).point i) =
      (s.point i).acts s.now n s.slot := by
  induction n generalizing s with
  | zero => rfl
  | succ n ih =>
    rw [List.replicate_succ, run_cons, ih]
    simp [after, did, Point.acts_succ]

/-- **A caller that nobody disturbs gets what the slot alone answers**, and leaves the slot so. -/
theorem run_alone {last : Option Reply} (away : s.point i = .away last)
    (free : s.slot.phase.duty? = none) (q : Request) :
    (s.run (.call i q :: List.replicate 4 (.go i))).slot = (q.answer s.now s.slot).2 ∧
      (s.run (.call i q :: List.replicate 4 (.go i))).point i =
        .away (some (q.answer s.now s.slot).1) := by
  have called : s.after (.call i q) = s.did i { slot := s.slot, next := q.start s.slot } := by
    simp [after, away]
  have acts := run_replicate_go (s := s.after (.call i q)) (i := i) 4
  rw [called, did_point_self, did_slot] at acts
  rw [run_cons, called, ← Prod.mk.injEq, acts]
  exact Request.acts_start free s.now q

end Shared

end SnippetAudit.Embedding
