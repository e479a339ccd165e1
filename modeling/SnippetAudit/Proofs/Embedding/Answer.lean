import SnippetAudit.Proofs.Embedding.Callers
import SnippetAudit.Proofs.Embedding.Slot
import SnippetAudit.Proofs.Embedding.Token

/-!
What embedding a text gives.

The backend of a configuration always gives the same model. So a slot never holds another one, no caller has
another one, and a caller gets what this model makes of its text, whatever was asked before and whatever other
callers do meanwhile (`Slot.Steady.after`, `Shared.reply_eq`). The model sees the first tokens only. Hence an
embedding depends on these and on the configuration alone (`embeds_firstTokens`).
-/

namespace SnippetAudit.Embedding

/-! ### One request after the other -/

namespace Slot

/-- A slot after some requests, each at a time of its own. -/
def after (s : Slot) (qs : List (Nat × Request)) : Slot := qs.foldl (fun s q => (q.2.answer q.1 s).2) s

variable {s : Slot} {enabled : Bool} {load : Load}

/-- A slot stays steady, whatever is asked of it. -/
theorem Steady.after (steady : s.Steady enabled load) (qs : List (Nat × Request)) :
    (s.after qs).Steady enabled load := by
  induction qs generalizing s with
  | nil => exact steady
  | cons q qs ih =>
    obtain ⟨now, q⟩ := q
    refine ih ?_
    cases q with
    | embed code => exact steady.embed_snd now code
    | unload => exact steady.unload_snd
    | cleanup => exact steady.cleanup_snd now

/-- A slot that holds no model but the one that its backend gives whenever it is asked. -/
structure Serves (enabled : Bool) (load : Load) (s : Slot) : Prop where
  enabled : s.enabled = enabled
  backend : ∀ n, s.backend n = load
  model : ∀ m u, s.phase = .loaded m u → load = .model m

end Slot

/-! ### Several callers -/

namespace Point

/-- A caller that has no model, and no outcome of a load, but the one that the backend always gives. -/
def Serves (load : Load) : Point → Prop
  | publishing _ outcome => outcome = load
  | embedding _ m => load = .model m
  | away _ | asking _ | waiting _ | loading _ | checking | taking _ | evicting | waking _ => True

/-- A caller that embeds a text, or has got what comes of it. -/
def Embeds (code : String) (enabled : Bool) (load : Load) : Point → Prop
  | asking x | waiting x | loading x | publishing x _ | embedding x _ => x = code ∧ enabled = true
  | waking reply => reply = .embedded (Slot.steadyAnswer code enabled load)
  | away last => last = some (.embedded (Slot.steadyAnswer code enabled load))
  | checking | taking _ | evicting => False

variable {p : Point} {slot : Slot} {enabled : Bool} {load : Load} {code : String}

theorem Serves.woken (serves : p.Serves load) : p.woken.Serves load := by
  cases p with
  | waiting x => trivial
  | _ => exact serves

theorem Embeds.woken (embeds : p.Embeds code enabled load) : p.woken.Embeds code enabled load := by
  cases p with
  | waiting x => exact embeds
  | _ => exact embeds

theorem serves_start (q : Request) : (q.start slot).Serves load := by
  cases q with
  | embed x =>
    rw [Request.start]
    split
    · trivial
    · trivial
  | unload | cleanup => trivial

/-- **No section brings another model into the slot or to its caller.** -/
theorem serves_act (served : slot.Serves enabled load) (serves : p.Serves load) (now : Nat) :
    (p.act now slot).slot.Serves enabled load ∧ (p.act now slot).next.Serves load := by
  cases p with
  | asking x =>
    cases phase : slot.phase with
    | loaded m u =>
      have given := served.model m u phase
      simp only [act, phase, Phase.claim]
      exact ⟨⟨served.enabled, served.backend, by rintro _ _ ⟨⟩; exact given⟩, given⟩
    | unloaded | loading | evicting =>
      simp only [act, phase, Phase.claim]
      exact ⟨⟨served.enabled, served.backend, by simp⟩, trivial⟩
  | loading x => exact ⟨⟨served.enabled, served.backend, served.model⟩, served.backend slot.loads⟩
  | publishing x outcome =>
    cases outcome with
    | model m =>
      exact ⟨⟨served.enabled, served.backend, by rintro _ _ ⟨⟩; exact serves.symm⟩, serves.symm⟩
    | failed | crashed => exact ⟨⟨served.enabled, served.backend, by simp [act, Phase.publish]⟩, trivial⟩
  | checking =>
    rw [act]
    split
    · exact ⟨served, trivial⟩
    · exact ⟨served, trivial⟩
  | taking idle =>
    cases phase : slot.phase with
    | loaded | unloaded | loading | evicting =>
      simp only [act, phase, Phase.take]
      exact ⟨⟨served.enabled, served.backend, by simp⟩, trivial⟩
  | evicting => exact ⟨⟨served.enabled, served.backend, by simp [act, Phase.reset]⟩, trivial⟩
  | away | waiting | embedding | waking => exact ⟨served, trivial⟩

/-- **A caller that embeds a text goes on with it until it has what comes of it.** -/
theorem embeds_act (serves : p.Serves load) (embeds : p.Embeds code enabled load) (now : Nat) :
    (p.act now slot).next.Embeds code enabled load := by
  cases p with
  | asking x =>
    cases phase : slot.phase with
    | loaded | unloaded | loading | evicting =>
      simp only [act, phase, Phase.claim]
      exact embeds
  | publishing x outcome =>
    obtain ⟨rfl, rfl⟩ := embeds
    obtain rfl : outcome = load := serves
    cases outcome with
    | model m => exact ⟨rfl, rfl⟩
    | failed | crashed => rfl
  | embedding x m =>
    obtain ⟨rfl, rfl⟩ := embeds
    obtain rfl : load = .model m := serves
    rfl
  | waking reply => exact congrArg some embeds
  | away | waiting | loading => exact embeds
  | checking | taking | evicting => exact embeds.elim

end Point

namespace Shared

variable {ι : Type} [DecidableEq ι] {s : Shared ι} {i j : ι} {r : Section} {enabled : Bool} {load : Load}
  {code : String}

/-- Neither the slot nor a caller has a model but the one that the backend always gives. -/
structure Serves (enabled : Bool) (load : Load) (s : Shared ι) : Prop where
  slot : s.slot.Serves enabled load
  point : ∀ i, (s.point i).Serves load

theorem Serves.did (serves : s.Serves enabled load) (served : r.slot.Serves enabled load)
    (next : r.next.Serves load) : (s.did i r).Serves enabled load := by
  refine ⟨served, fun j => ?_⟩
  by_cases same : j = i
  · rw [same, did_point_self]
    exact next
  · rw [did_point_of_ne same]
    split
    · exact (serves.point j).woken
    · exact serves.point j

theorem Serves.after (serves : s.Serves enabled load) (e : Event ι) : (s.after e).Serves enabled load := by
  rcases s.does_or_same e with ⟨-, slot, point⟩ | ⟨i, r, does, same⟩
  · constructor
    · rw [slot]
      exact serves.slot
    · rw [point]
      exact serves.point
  · rw [same]
    cases does with
    | starts q _ => exact serves.did serves.slot (Point.serves_start q)
    | acts i =>
      obtain ⟨slot, next⟩ := Point.serves_act serves.slot (serves.point i) s.now
      exact serves.did slot next
    | stirs _ => exact serves.did serves.slot trivial

theorem Serves.run (serves : s.Serves enabled load) (es : List (Event ι)) : (s.run es).Serves enabled load := by
  induction es generalizing s with
  | nil => exact serves
  | cons e es ih => exact ih (serves.after e)

/-- What a caller does leaves another one where it is, or wakes it. -/
theorem embeds_did_of_ne (other : i ≠ j) (embeds : (s.point i).Embeds code enabled load) :
    ((s.did j r).point i).Embeds code enabled load := by
  rw [did_point_of_ne other]
  split
  · exact embeds.woken
  · exact embeds

theorem embeds_after (serves : s.Serves enabled load) (embeds : (s.point i).Embeds code enabled load)
    {e : Event ι} (goesOn : ∀ q, e ≠ .call i q) : ((s.after e).point i).Embeds code enabled load := by
  rcases s.does_or_same e with ⟨-, -, point⟩ | ⟨j, r, does, same⟩
  · rw [point]
    exact embeds
  · rw [same]
    by_cases own : i = j
    · subst own
      rw [did_point_self]
      cases does with
      | starts q _ => exact absurd rfl (goesOn q)
      | acts i => exact Point.embeds_act (serves.point i) embeds s.now
      | stirs waits =>
        rw [waits] at embeds
        exact embeds
    · exact embeds_did_of_ne own embeds

theorem embeds_run {es : List (Event ι)} (serves : s.Serves enabled load)
    (embeds : (s.point i).Embeds code enabled load) (goesOn : ∀ q, Event.call i q ∉ es) :
    ((s.run es).point i).Embeds code enabled load := by
  induction es generalizing s with
  | nil => exact embeds
  | cons e es ih =>
    refine ih (serves.after e) (embeds_after serves embeds ?_) fun q mem => goesOn q (List.mem_cons_of_mem e mem)
    rintro q rfl
    exact goesOn q List.mem_cons_self

/-- **A caller that embeds a text gets what the backend makes of it**, whatever the others do meanwhile. -/
theorem reply_eq {es : List (Event ι)} {prior last : Option Reply} (serves : s.Serves enabled load)
    (free : s.point i = .away prior) (goesOn : ∀ q, Event.call i q ∉ es)
    (done : (s.run (.call i (.embed code) :: es)).point i = .away last) :
    last = some (.embedded (Slot.steadyAnswer code enabled load)) := by
  have begun : ((s.after (.call i (.embed code))).point i).Embeds code enabled load := by
    simp only [Shared.after, free]
    rw [did_point_self, Request.start, serves.slot.enabled]
    cases enabled with
    | true => exact ⟨rfl, rfl⟩
    | false => cases load <;> rfl
  have ended := embeds_run (serves.after _) begun goesOn
  rw [run_cons] at done
  rw [done] at ended
  exact ended

end Shared

/-! ### First tokens -/

/-- What a model with a configuration makes of tokens that are counted by a hash. -/
def ofTokens (hash : List Char → UInt64) (c : Config.Model) (ts : List (List Char)) : Option Vector :=
  if c.enabled && c.dimensions ≠ 0 then
    some (normalized (ts.foldl (countToken hash) (Array.replicate c.dimensions 0)))
  else none

/-- The answer with a vector, if there is one. -/
def Slot.Answer.ofVector? : Option Vector → Slot.Answer
  | .some v => .vector v
  | .none => .none

/-- **The model sees the first tokens of a text only.** -/
theorem steadyAnswer_eq (hash : List Char → UInt64) (c : Config.Model) (code : String) :
    Slot.steadyAnswer code c.enabled (tokenBackend hash c.dimensions c.maxTokens 0) =
      .ofVector? (ofTokens hash c ((tokens code).take c.maxTokens)) := by
  rw [tokenBackend, ofTokens]
  by_cases zero : c.dimensions = 0
  · rw [if_pos zero]
    simp [Slot.steadyAnswer, zero, Slot.Answer.ofVector?]
  · rw [if_neg zero]
    cases enabled : c.enabled with
    | true => simp [Slot.steadyAnswer, zero, Slot.Answer.ofVector?, Slot.answer, embed]
    | false => simp [Slot.steadyAnswer, Slot.Answer.ofVector?]

/-- What comes of a text, whenever it is embedded with a configuration: whatever was asked of the slot before, and
whatever other callers do meanwhile. -/
structure Embeds (hash : List Char → UInt64) (c : Config.Model) (code : String) (v : Option Vector) : Prop where
  alone : ∀ (qs : List (Nat × Request)) (now : Nat),
    (((Slot.standardBy hash c).after qs).embed now code).1 = .ofVector? v
  shared : ∀ {ι : Type} [DecidableEq ι] (i : ι) (now : Nat) (before es : List (Event ι))
      (prior last : Option Reply),
    let s := (Shared.start (tokenBackend hash c.dimensions c.maxTokens) c now).run before
    s.point i = .away prior → (∀ q, Event.call i q ∉ es) →
      (s.run (.call i (.embed code) :: es)).point i = .away last → last = some (.embedded (.ofVector? v))

theorem embeds_of_tokenized (hash : List Char → UInt64) (c : Config.Model) {code : String}
    {ts : List (List Char)} (made : Tokenized code.toList ts) :
    Embeds hash c code (ofTokens hash c (ts.take c.maxTokens)) := by
  have tokens : tokens code = ts := tokens_eq_iff.mpr made
  rw [← tokens]
  constructor
  · intro qs now
    have steady := (Slot.steady_standardBy hash c).after qs
    rw [steady.embed_fst, steadyAnswer_eq]
  · intro ι _ i now before es prior last s free goesOn done
    have start : (Shared.start (tokenBackend hash c.dimensions c.maxTokens) c now : Shared ι).Serves c.enabled
        (tokenBackend hash c.dimensions c.maxTokens 0) :=
      ⟨⟨rfl, fun _ => rfl, by rintro _ _ ⟨⟩⟩, fun _ => trivial⟩
    rw [← steadyAnswer_eq]
    exact Shared.reply_eq (start.run before) free goesOn done

/-- **An embedding depends on the first tokens of a text only**, however many the configuration lets through, and
by whatever hash they are counted. What stands between tokens does not count, and neither do the tokens behind the
first ones. So texts that are made of the same first tokens have the same embedding, if the model gives one, and it
is the one of these tokens with a blank between any two. -/
theorem embeds_firstTokens (hash : List Char → UInt64) (c : Config.Model) {x y : String}
    {ts us : List (List Char)} (madeX : Tokenized x.toList ts) (madeY : Tokenized y.toList us)
    (same : ts.take c.maxTokens = us.take c.maxTokens) :
    Embeds hash c x (ofTokens hash c (ts.take c.maxTokens)) ∧
      Embeds hash c y (ofTokens hash c (ts.take c.maxTokens)) ∧
      Embeds hash c (String.ofList (Text.joinWith ' ' (ts.take c.maxTokens)))
        (ofTokens hash c (ts.take c.maxTokens)) := by
  have spaced :
      Tokenized (String.ofList (Text.joinWith ' ' (ts.take c.maxTokens))).toList (ts.take c.maxTokens) := by
    rw [String.toList_ofList]
    exact tokenized_spaced fun t mem => madeX.isToken t (List.mem_of_mem_take mem)
  have spacedEmbeds := embeds_of_tokenized hash c spaced
  rw [List.take_take, Nat.min_self] at spacedEmbeds
  refine ⟨embeds_of_tokenized hash c madeX, ?_, spacedEmbeds⟩
  rw [same]
  exact embeds_of_tokenized hash c madeY

/-- Two calls that are laid out differently, and differ behind the second token. -/
theorem embeds_firstTokens_of_layout :
    let c : Config.Model := { maxTokens := 2, dimensions := 8 }
    let v := ofTokens Hash.ofChars c ["add".toList, "x_1".toList]
    Embeds Hash.ofChars c "add(x_1, y)" v ∧ Embeds Hash.ofChars c "add( x_1 )\n" v ∧
      Embeds Hash.ofChars c "add x_1" v := by
  intro c v
  have madeX : Tokenized "add(x_1, y)".toList ["add".toList, "x_1".toList, "y".toList] :=
    tokens_eq_iff.mp (by decide +kernel)
  have madeY : Tokenized "add( x_1 )\n".toList ["add".toList, "x_1".toList] :=
    tokens_eq_iff.mp (by decide +kernel)
  have spaced : String.ofList (Text.joinWith ' ' ["add".toList, "x_1".toList]) = "add x_1" := by
    decide +kernel
  have both := embeds_firstTokens Hash.ofChars c madeX madeY rfl
  have cut : ["add".toList, "x_1".toList, "y".toList].take c.maxTokens = ["add".toList, "x_1".toList] := rfl
  rw [cut, spaced] at both
  exact both

end SnippetAudit.Embedding
