import Mathlib.Data.List.Induction
import SnippetAudit.Proofs.Embedding.Callers

/-!
When a cleanup evicts a model that is idle.

A cleanup looks whether the model was idle for too long in one section, and takes it out in another. In
between others may get the model, which makes it fresh. Whenever it is in the slot, the time at which it was
last used is the time at which somebody last got it (`lastUsed_run`). So what is taken out was idle for too
long exactly if nobody got it since the cleanup looked, or nobody did for that long (`eviction_idle_iff`).
-/

namespace SnippetAudit.Embedding

namespace Point

/-- The model that a caller has. -/
def model? : Point → Option Model
  | embedding _ m => some m
  | away _ | asking _ | waiting _ | loading _ | publishing _ _ | checking | taking _ | evicting
  | waking _ => none

theorem woken_eq_taking_iff {p : Point} {idle : Bool} : p.woken = .taking idle ↔ p = .taking idle := by
  cases p <;> simp [woken]

/-- What every section does with the times of use. -/
structure Dated (now : Nat) (slot : Slot) (p : Point) (r : Section) : Prop where
  idleTimeout : r.slot.idleTimeout = slot.idleTimeout
  /-- Whoever gets the model leaves it as used at that time. -/
  used : ∀ m, r.next.model? = some m → r.slot.phase = .loaded m now
  /-- Nobody else makes it fresh. -/
  kept : r.next.model? = none → ∀ m u, r.slot.phase = .loaded m u → slot.phase = .loaded m u
  /-- Only who finds it idle is about to take it out for that. -/
  found : r.next = .taking true → p = .checking ∧ slot.phase.isIdle slot.idleTimeout now = true

theorem dated_act (now : Nat) (slot : Slot) (p : Point) : p.Dated now slot (p.act now slot) := by
  cases p with
  | asking code => cases h : slot.phase <;> constructor <;> simp [act, h, Phase.claim, model?]
  | publishing code outcome => cases outcome <;> constructor <;> simp [act, Phase.publish, model?]
  | taking idle => cases h : slot.phase <;> constructor <;> simp [act, h, Phase.take, model?]
  | checking =>
    cases idle : slot.phase.isIdle slot.idleTimeout now <;> constructor <;> simp [act, idle, model?]
  | _ => constructor <;> simp [act, Phase.reset, model?]

end Point

/-- No call begins with taking the model out because it is idle. -/
theorem Request.start_ne_taking (slot : Slot) (q : Request) : q.start slot ≠ .taking true := by
  cases q with
  | embed code => cases enabled : slot.enabled <;> simp [start, enabled]
  | _ => simp [start]

/-! ### When a model is used -/

namespace Shared

variable {ι : Type} [DecidableEq ι] {s : Shared ι} {e : Event ι} {es : List (Event ι)} {i : ι} {m : Model}
  {u t : Nat}

/-- The model that a caller gets in an event, if one does. -/
def given? (s : Shared ι) : Event ι → Option Model
  | .go i => ((s.point i).act s.now s.slot).next.model?
  | .call _ _ | .stir _ | .tick _ => none

/-- The times at which callers get a model in the course of some events. -/
def uses (s : Shared ι) : List (Event ι) → List Nat
  | [] => []
  | e :: es => if (s.given? e).isSome then s.now :: uses (s.after e) es else uses (s.after e) es

/-- Only a section of a caller changes the slot. -/
theorem slot_after (s : Shared ι) (e : Event ι) :
    (s.after e).slot = match e with
      | .go i => ((s.point i).act s.now s.slot).slot
      | .call _ _ | .stir _ | .tick _ => s.slot := by
  cases e with
  | go i => rfl
  | tick span => rfl
  | call i q => cases h : s.point i <;> simp [after, h]
  | stir i => cases h : s.point i <;> simp [after, h]

theorem idleTimeout_after (s : Shared ι) (e : Event ι) :
    (s.after e).slot.idleTimeout = s.slot.idleTimeout := by
  rw [slot_after]
  cases e with
  | go i => exact (Point.dated_act s.now s.slot (s.point i)).idleTimeout
  | _ => rfl

theorem idleTimeout_run (s : Shared ι) (es : List (Event ι)) :
    (s.run es).slot.idleTimeout = s.slot.idleTimeout := by
  induction es generalizing s with
  | nil => rfl
  | cons e es ih => rw [run_cons, ih, idleTimeout_after]

/-- Time does not go back. -/
theorem now_le_after (s : Shared ι) (e : Event ι) : s.now ≤ (s.after e).now := by
  cases e with
  | go i => exact Nat.le_refl _
  | tick span => exact Nat.le_add_right _ _
  | call i q => cases h : s.point i <;> simp [after, did, h]
  | stir i => cases h : s.point i <;> simp [after, did, h]

theorem now_le_run (s : Shared ι) (es : List (Event ι)) : s.now ≤ (s.run es).now := by
  induction es generalizing s with
  | nil => exact Nat.le_refl _
  | cons e es ih => exact Nat.le_trans (now_le_after s e) (ih (s.after e))

/-- **A model in the slot was last used when somebody got it**, or it is as it was. -/
theorem loaded_after (loaded : (s.after e).slot.phase = .loaded m u) :
    (s.given? e).isSome = true ∧ u = s.now ∨ (s.given? e).isSome = false ∧ s.slot.phase = .loaded m u := by
  rw [slot_after] at loaded
  cases e with
  | go i =>
    have dated := Point.dated_act s.now s.slot (s.point i)
    cases got : s.given? (.go i) with
    | none => exact .inr ⟨rfl, dated.kept got m u loaded⟩
    | some m' =>
      rw [dated.used m' got] at loaded
      cases loaded
      exact .inl ⟨rfl, rfl⟩
  | _ => exact .inr ⟨rfl, loaded⟩

theorem uses_cons_of_given (given : (s.given? e).isSome = true) :
    s.uses (e :: es) = s.now :: (s.after e).uses es := by
  rw [uses, if_pos given]

theorem uses_cons_of_not_given (given : (s.given? e).isSome = false) :
    s.uses (e :: es) = (s.after e).uses es := by
  rw [uses, if_neg (by simp [given])]

/-- **After a run the model was last used when somebody last got it in its course**, or it is as it was
before. -/
theorem lastUsed_run (loaded : (s.run es).slot.phase = .loaded m u) :
    (s.uses es).getLast? = some u ∨ s.uses es = [] ∧ s.slot.phase = .loaded m u := by
  induction es generalizing s with
  | nil => exact .inr ⟨rfl, loaded⟩
  | cons e es ih =>
    rcases ih loaded with last | ⟨unused, before⟩
    · left
      cases given : (s.given? e).isSome with
      | true => rw [uses_cons_of_given given, List.getLast?_cons, last, Option.getD_some]
      | false => rw [uses_cons_of_not_given given, last]
    · rcases loaded_after before with ⟨given, rfl⟩ | ⟨given, before⟩
      · left
        rw [uses_cons_of_given given, unused, List.getLast?_singleton]
      · right
        rw [uses_cons_of_not_given given]
        exact ⟨unused, before⟩

/-- Uses lie between the time at the beginning and the one at the end. -/
theorem mem_uses (mem : t ∈ s.uses es) : s.now ≤ t ∧ t ≤ (s.run es).now := by
  induction es generalizing s with
  | nil => cases mem
  | cons e es ih =>
    have later : t ∈ (s.after e).uses es → s.now ≤ t ∧ t ≤ (s.run (e :: es)).now := fun mem =>
      ⟨Nat.le_trans (now_le_after s e) (ih mem).1, (ih mem).2⟩
    cases given : (s.given? e).isSome with
    | false =>
      rw [uses_cons_of_not_given given] at mem
      exact later mem
    | true =>
      rw [uses_cons_of_given given, List.mem_cons] at mem
      rcases mem with rfl | mem
      · exact ⟨Nat.le_refl _, now_le_run s (e :: es)⟩
      · exact later mem

/-- The times of use ascend. -/
theorem pairwise_uses (s : Shared ι) (es : List (Event ι)) : (s.uses es).Pairwise (· ≤ ·) := by
  induction es generalizing s with
  | nil => exact .nil
  | cons e es ih =>
    cases given : (s.given? e).isSome with
    | false =>
      rw [uses_cons_of_not_given given]
      exact ih (s.after e)
    | true =>
      rw [uses_cons_of_given given, List.pairwise_cons]
      exact ⟨fun t mem => Nat.le_trans (now_le_after s e) (mem_uses mem).1, ih (s.after e)⟩

/-! ### What a cleanup has found -/

/-- A section takes its caller to the next point, and no other to the taking of the model. -/
theorem taking_did {j : ι} {r : Section} {idle : Bool} (taking : (s.did j r).point i = .taking idle) :
    i = j ∧ r.next = .taking idle ∨ i ≠ j ∧ s.point i = .taking idle := by
  by_cases same : i = j
  · subst same
    exact .inl ⟨rfl, did_point_self.symm.trans taking⟩
  · rw [did_point_of_ne same] at taking
    split at taking
    next => exact .inr ⟨same, Point.woken_eq_taking_iff.mp taking⟩
    next => exact .inr ⟨same, taking⟩

/-- Whoever is about to take the model out because it is idle has just found it so, or was about to before and
has not gone on. -/
theorem taking_after (taking : (s.after e).point i = .taking true) :
    s.point i = .taking true ∧ e ≠ .go i ∨
      e = .go i ∧ s.point i = .checking ∧ s.slot.phase.isIdle s.slot.idleTimeout s.now = true := by
  rcases s.does_or_same e with ⟨idle, -, point⟩ | ⟨j, r, does, same⟩
  · rw [point] at taking
    exact .inl ⟨taking, idle i⟩
  · rw [same] at taking
    rcases taking_did taking with ⟨rfl, next⟩ | ⟨other, still⟩
    · cases does with
      | starts q _ => exact absurd next (Request.start_ne_taking s.slot q)
      | acts => exact .inr ⟨rfl, (Point.dated_act s.now s.slot (s.point i)).found next⟩
      | stirs _ => cases next
    · refine .inl ⟨still, ?_⟩
      rintro rfl
      cases does
      exact other rfl

@[simp] theorem run_append (s : Shared ι) (es es' : List (Event ι)) :
    s.run (es ++ es') = (s.run es).run es' := List.foldl_append

/-- **Whoever is about to take the model out because it is idle once found it so**, and has done nothing
since. -/
theorem exists_check_of_taking (idle : s.point i ≠ .taking true)
    (taking : (s.run es).point i = .taking true) :
    ∃ before since, es = before ++ .go i :: since ∧ Event.go i ∉ since ∧
      (s.run before).point i = .checking ∧
      (s.run before).slot.phase.isIdle (s.run before).slot.idleTimeout (s.run before).now = true := by
  induction es using List.reverseRecOn with
  | nil => exact absurd taking idle
  | append_singleton es e ih =>
    rw [run_append, run_cons, run_nil] at taking
    rcases taking_after taking with ⟨still, other⟩ | ⟨rfl, checking, found⟩
    · obtain ⟨before, since, rfl, quiet, checked⟩ := ih still
      refine ⟨before, since ++ [e], by simp, ?_, checked⟩
      simp [quiet, other.symm]
    · exact ⟨es, [], rfl, List.not_mem_nil, checking, found⟩

/-- A look at the model changes neither the slot nor the time. -/
theorem after_check (checking : s.point i = .checking) :
    (s.after (.go i)).slot = s.slot ∧ (s.after (.go i)).now = s.now := by
  refine ⟨?_, rfl⟩
  change ((s.point i).act s.now s.slot).slot = s.slot
  rw [checking, Point.act]
  split <;> rfl

/-- **A model that was idle for too long still is exactly if nobody gets it for so long.** -/
theorem idle_iff_uses {timeout : Nat} (idle : s.slot.phase.isIdle timeout s.now = true)
    (loaded : (s.run es).slot.phase = .loaded m u) :
    timeout < (s.run es).now - u ↔ ∀ t ∈ s.uses es, timeout < (s.run es).now - t := by
  rcases lastUsed_run loaded with last | ⟨unused, before⟩
  · obtain ⟨front, uses⟩ := List.getLast?_eq_some_iff.mp last
    have sorted := pairwise_uses s es
    rw [uses, List.pairwise_append] at sorted
    rw [uses]
    constructor
    · intro long t mem
      rcases List.mem_append.mp mem with earlier | here
      · have := sorted.2.2 t earlier u (List.mem_singleton.mpr rfl)
        omega
      · rwa [List.mem_singleton.mp here]
    · exact fun all => all u (by simp)
  · rw [before, Phase.isIdle, decide_eq_true_eq] at idle
    have later := now_le_run s es
    rw [unused]
    exact iff_of_true (by omega) (List.forall_mem_nil _)

/-- **When a cleanup evicts a model that is idle.** Whoever takes the model out in a cleanup has found it idle
for longer than the timeout before, and has done nothing since. The model still is idle for so long when it is
taken out exactly if nobody got it since then, or nobody did within the timeout. -/
theorem eviction_idle_iff (backend : Backend) (c : Config.Model) (now : Nat) (es : List (Event ι)) (i : ι)
    (taking : ((start backend c now).run es).point i = .taking true)
    (loaded : ((start backend c now).run es).slot.phase = .loaded m u) :
    (((start backend c now).run es).after (.go i)).slot.phase = .evicting ∧
      ∃ before since, es = before ++ .go i :: since ∧ Event.go i ∉ since ∧
        ((start backend c now).run before).point i = .checking ∧
        ((start backend c now).run before).slot.phase.isIdle (1000 * c.idleTimeout)
          ((start backend c now).run before).now = true ∧
        (1000 * c.idleTimeout < ((start backend c now).run es).now - u ↔
          ∀ t ∈ ((start backend c now).run (before ++ [.go i])).uses since,
            1000 * c.idleTimeout < ((start backend c now).run es).now - t) := by
  constructor
  · rw [slot_after]
    change (((start backend c now).run es).point i |>.act _ _).slot.phase = .evicting
    rw [taking, Point.act, loaded]
    rfl
  · obtain ⟨before, since, rfl, quiet, checking, found⟩ :=
      exists_check_of_taking (s := start backend c now) (by simp [start]) taking
    have timeout : ((start backend c now : Shared ι).run before).slot.idleTimeout = 1000 * c.idleTimeout :=
      idleTimeout_run _ _
    rw [timeout] at found
    obtain ⟨slot, time⟩ := after_check checking
    have split : (start backend c now).run (before ++ .go i :: since) =
        ((start backend c now).run (before ++ [.go i])).run since := by
      rw [← run_append, List.append_assoc, List.singleton_append]
    have still : ((start backend c now).run (before ++ [.go i])).slot.phase.isIdle (1000 * c.idleTimeout)
        ((start backend c now).run (before ++ [.go i])).now = true := by
      rw [run_append, run_cons, run_nil, slot, time]
      exact found
    rw [split] at loaded
    refine ⟨before, since, rfl, quiet, checking, found, ?_⟩
    rw [split]
    exact idle_iff_uses still loaded

/-- One caller uses the model and lets it be idle for too long. Another one looks at it for a cleanup; then the
first gets it again. -/
def lateUse : List (Event Bool) :=
  [.call true (.embed "x"), .go true, .go true, .go true, .go true, .tick 300001,
    .call false .cleanup, .go false, .call true (.embed "y"), .go true]

/-- If the model is idle for too long once more until it is taken out, all is well. -/
theorem eviction_idle_of_late_use :
    let reached : Shared Bool := (start (tokenBackend Hash.ofChars 8 512) {} 0).run (lateUse ++ [.tick 300001])
    reached.point false = .taking true ∧
      ∃ m u, reached.slot.phase = .loaded m u ∧ (reached.after (.go false)).slot.phase = .evicting ∧
        ∃ before since, lateUse ++ [.tick 300001] = before ++ .go false :: since ∧
          Event.go false ∉ since ∧
          ((start (tokenBackend Hash.ofChars 8 512) {} 0).run before).point false = .checking ∧
          ((start (tokenBackend Hash.ofChars 8 512) {} 0).run before).slot.phase.isIdle 300000
            ((start (tokenBackend Hash.ofChars 8 512) {} 0).run before).now = true ∧
          (300000 < reached.now - u ↔
            ∀ t ∈ ((start (tokenBackend Hash.ofChars 8 512) {} 0).run (before ++ [.go false])).uses since,
              300000 < reached.now - t) := by
  intro reached
  have taking : reached.point false = .taking true := rfl
  have loaded : reached.slot.phase = .loaded (fun code => some (embed Hash.ofChars 8 512 code)) 300001 := rfl
  exact ⟨taking, _, _, loaded, eviction_idle_iff (tokenBackend Hash.ofChars 8 512) {} 0 _ false taking loaded⟩

/-- **A cleanup may evict a model that was used just now**, and that a caller is about to embed with. -/
theorem model_in_use_evicted :
    let reached : Shared Bool := (start (tokenBackend Hash.ofChars 8 512) {} 0).run lateUse
    reached.point false = .taking true ∧
      ∃ m u, reached.slot.phase = .loaded m u ∧ reached.point true = .embedding "y" m ∧
        reached.now = u ∧ ¬ reached.slot.idleTimeout < reached.now - u ∧
        (reached.after (.go false)).slot.phase = .evicting :=
  ⟨rfl, _, _, rfl, rfl, rfl, by decide, rfl⟩

end Shared

end SnippetAudit.Embedding
