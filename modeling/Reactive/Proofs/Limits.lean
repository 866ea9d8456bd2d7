import Reactive.Proofs.Outputs
import Reactive.Proofs.Refinement

/-!
# The limit of calls

A call may go on by itself for a while, but not for ever: behind its first transition it takes at
most as many as its limit says. The limit is looked at after a state has been entered and before
anything is done about the event that the state calls for. So a call is given up exactly if it has
fired one transition more than the limit and the last of them has led into a state to go on from.
It does not matter whether anything would have handled the event.

The limit is seen only where a call is given up. Under a larger limit the call does the same up to
that place and then goes on, with as many transitions as the limits differ by. Calls that were not
given up are the same under every larger limit.

## Main definitions

* `givenUp?` — was a call given up, and in which state under which limit?
* `Automaton.Limited` — what is true of the length of a call when it has ended
* `Automaton.withLimit` — the automaton under another limit
* `Automaton.goOn` — what follows in a call that was given up

## Main results

* `Automaton.limited_callTrail` — the limit is exact
* `Automaton.settle_withLimit`, `Automaton.call_withLimit` — **a call under a larger limit**
* `Automaton.limit_of_call`
* `Definition.build_withLimit` — what is built under another limit
-/

namespace Reactive

variable {m : Type → Type} {S E O : Type}

/-- If a call with this result was given up, in which state, and under which limit? -/
def givenUp? : Except Halt (Option O) → Option (String × UInt64)
  | .error (.failed (.cascadeLimitExceeded state limit)) => some (state, limit)
  | .error (.failed (.modelUpdate _ _ _)) | .error (.crashed _) | .ok _ => none

@[simp] theorem givenUp?_ok (output : Option O) :
    givenUp? (.ok output : Except Halt (Option O)) = none :=
  rfl

namespace Automaton

/-! ### How long calls are -/

/-- A step that halts does not give up the call. -/
theorem Halts.givenUp?_eq_none {Asks : Branch m S E O → Value → ActionResult O → Prop}
    {a : Automaton m S E O} {event : String} {halt : Halt} (h : a.Halts Asks event halt) :
    givenUp? (.error halt : Except Halt (Option O)) = none := by
  cases h with
  | crashed _ => rfl
  | refused _ _ _ _ => rfl

/-- What is known of the length of a call of `a` when it has ended, after the passages of a
trail. -/
structure Limited (a : Automaton m S E O) (trail : List (Passage m S E O))
    (reached : Automaton m S E O) (result : Except Halt (Option O)) : Prop where
  /-- The limit stays what it was. -/
  config_eq : reached.config = a.config
  /-- The present state is the one that was entered last. -/
  entered : ∀ p earlier, trail = p :: earlier → reached = p.after
  length_le : trail.length ≤ a.config.maxCascadeDepth.toNat + 1
  /-- The call was given up exactly if it was as long as can be and had to go on. The failure names
  the limit and the state that was entered last. -/
  givenUp?_eq : givenUp? result
    = if trail.length = a.config.maxCascadeDepth.toNat + 1 ∧ reached.isResting = false then
        some (reached.current, a.config.maxCascadeDepth)
      else none
  /-- If it was as long as can be and ended in a state to rest in, that is no failure. -/
  settled : trail.length = a.config.maxCascadeDepth.toNat + 1 → reached.isResting = true →
    result = .ok (lastOutput trail)

variable {a : Automaton m S E O}

/-- A call that has not used up its limit was not given up. -/
theorem limited_of_length_le {trail : List (Passage m S E O)} {reached : Automaton m S E O}
    {result : Except Halt (Option O)} (hconfig : reached.config = a.config)
    (hentered : ∀ p earlier, trail = p :: earlier → reached = p.after)
    (hlength : trail.length ≤ a.config.maxCascadeDepth.toNat) (hresult : givenUp? result = none) :
    a.Limited trail reached result where
  config_eq := hconfig
  entered := hentered
  length_le := by omega
  givenUp?_eq := by
    rw [hresult, if_neg]
    omega
  settled := by
    intro hfull
    omega

section

variable [Monad m] [LawfulMonad m]

/-- How long calls are. While a call is under way, what has fired and what is left make up the
limit. -/
theorem callRule_limited (a : Automaton m S E O) (data : E) :
    CallRule (fun (_ : Branch m S E O) _ _ => True) data
      (fun remaining depth _ trail b => UnderWay trail depth b ∧ b.config = a.config ∧
        depth = trail.length ∧ remaining + depth = a.config.maxCascadeDepth.toNat)
      a.Limited where
  known _ := knownToAsk_trivial data _ _
  unhandled := by
    rintro remaining _ event trail b ⟨hway, hconfig, rfl, hlimit⟩ -
    refine limited_of_length_le ?_ hway.concluded_drop.current (by omega) rfl
    split
    · exact hconfig
    · exact hconfig
  blocked := by
    rintro remaining _ event trail b ⟨hway, hconfig, rfl, hlimit⟩ -
    exact limited_of_length_le hconfig hway.concluded.current (by omega) rfl
  halted := by
    rintro remaining _ event trail b halt ⟨hway, hconfig, rfl, hlimit⟩ hhalts
    exact limited_of_length_le hconfig hway.concluded.current (by omega) hhalts.givenUp?_eq_none
  rests := by
    rintro remaining _ event trail p ⟨-, hconfig, rfl, hlimit⟩ - hnext
    constructor
    case config_eq => exact hconfig
    case entered => exact (concluded_resting trail hnext).current
    case length_le =>
      rw [List.length_cons]
      omega
    case givenUp?_eq => rw [isResting_eq_true hnext, if_neg (by simp), givenUp?_ok]
    case settled => exact fun _ _ => rfl
  exceeds := by
    rintro _ event trail p event' ⟨-, hconfig, rfl, hlimit⟩ - hnext
    have hresting := isResting_eq_false hnext
    have hlength : (p :: trail).length = a.config.maxCascadeDepth.toNat + 1 := by
      rw [List.length_cons]
      omega
    constructor
    case config_eq => exact hconfig
    case entered =>
      rintro _ _ ⟨⟩
      rfl
    case length_le => exact hlength.le
    case givenUp?_eq =>
      rw [if_pos ⟨hlength, hresting⟩, ← hconfig]
      rfl
    case settled =>
      intro _ hrests
      rw [hresting] at hrests
      cases hrests
  goesOn := by
    rintro remaining _ event trail p event' ⟨-, hconfig, rfl, hlimit⟩ - hnext
    exact ⟨.after _ hnext, hconfig, rfl, by omega⟩

/-- **The limit is exact.** -/
theorem limited_callTrail (a : Automaton m S E O) (c : Call E) :
    SatisfiesM (fun done => a.Limited done.1 done.2.1 done.2.2) (a.callTrail [] c) :=
  (callRule_limited a c.data).callTrail ⟨.inl ⟨rfl, rfl⟩, rfl, rfl, Nat.add_zero _⟩

end

/-! ### Under a larger limit -/

/-- The automaton under another limit. -/
def withLimit (limit : UInt64) (a : Automaton m S E O) : Automaton m S E O :=
  { a with config := { a.config with maxCascadeDepth := limit } }

theorem unseen_withLimit (limit : UInt64) :
    Unseen (withLimit limit : Automaton m S E O → Automaton m S E O) where
  table _ := rfl
  current _ := rfl
  model _ := rfl
  settings _ := rfl
  move _ _ _ _ _ := rfl

variable [Monad m]

/-- Goes on with a call that was given up after `depth` transitions, with `remaining` of them to
come behind the next one. -/
def goOn (data : E) (remaining depth : Nat) (a : Automaton m S E O) :
    m (Automaton m S E O × Except Halt (Option O)) :=
  match a.table.cascadeEvent? a.current with
  | none => pure (a, .ok none)
  | some event => settle data remaining depth event a

variable [LawfulMonad m]

theorem satisfiesM_step_givenUp? (a : Automaton m S E O) (event : String) (data : E) (depth : Nat) :
    SatisfiesM (fun step => ∀ halt, step = .halted halt →
        givenUp? (.error halt : Except Halt (Option O)) = none) (a.step event data depth) := by
  rw [← map_toStep_handle]
  refine (satisfiesM_treats (knownToAsk_trivial data a event) depth).map ?_
  intro outcome htreats halt heq
  cases htreats with
  | unhandled _ | blocked _ => cases heq
  | halted hhalts =>
    cases heq
    exact hhalts.givenUp?_eq_none
  | passed _ => cases heq

/-- **A call that is under way, under a larger limit.** It goes on where it would have been given
up. The induction is on the number of transitions that are left under the smaller limit. -/
theorem settle_withLimit (limit : UInt64) (data : E) (extra remaining depth : Nat) (event : String)
    (a : Automaton m S E O) :
    settle data (remaining + extra + 1) depth event (a.withLimit limit)
      = settle data remaining depth event a >>= fun done =>
          if givenUp? done.2 = none then pure (done.1.withLimit limit, done.2)
          else goOn data extra (remaining + depth + 1) (done.1.withLimit limit) := by
  induction remaining using Nat.strongRecOn generalizing depth event a with
  | ind remaining ih =>
    rw [settle, settle, ← (unseen_withLimit limit).map_step, bind_map_left, bind_assoc]
    refine bind_congr_of_satisfiesM (satisfiesM_step_givenUp? a event data depth)
      fun step hstep => ?_
    cases step with
    | unhandled =>
      simp only [Step.map, pure_bind, givenUp?_ok, if_true]
      rw [apply_ite (withLimit limit)]
      rfl
    | blocked => simp only [Step.map, pure_bind, givenUp?_ok, if_true]
    | halted halt => simp only [Step.map, pure_bind, hstep halt rfl, if_true]
    | fired next output =>
      have htable : (next.withLimit limit).table = next.table := rfl
      have hcurrent : (next.withLimit limit).current = next.current := rfl
      simp only [Step.map, htable, hcurrent]
      cases hnext : next.table.cascadeEvent? next.current with
      | none => simp only [pure_bind, givenUp?_ok, if_true]
      | some event' =>
        cases remaining with
        | zero =>
          simp only [pure_bind, givenUp?, reduceCtorEq, if_false]
          rw [goOn, htable, hcurrent, hnext, Nat.zero_add, Nat.zero_add]
        | succ remaining =>
          have hrest := ih remaining (Nat.lt_succ_self _) (depth + 1) event' next
          rw [show remaining + (depth + 1) = remaining + 1 + depth by omega] at hrest
          dsimp only
          rw [Nat.add_right_comm remaining 1 extra]
          exact hrest

/-- **A call under a larger limit.** -/
theorem call_withLimit {limit : UInt64} (a : Automaton m S E O)
    (h : a.config.maxCascadeDepth < limit) (c : Call E) :
    (a.withLimit limit).call c
      = a.call c >>= fun done =>
          if givenUp? done.2 = none then pure (done.1.withLimit limit, done.2)
          else goOn c.data (limit.toNat - a.config.maxCascadeDepth.toNat - 1)
            (a.config.maxCascadeDepth.toNat + 1) (done.1.withLimit limit) := by
  have hlimit : limit.toNat = a.config.maxCascadeDepth.toNat
      + (limit.toNat - a.config.maxCascadeDepth.toNat - 1) + 1 := by
    have := UInt64.lt_iff_toNat_lt.mp h
    omega
  have hsettle := fun data event => settle_withLimit limit data
    (limit.toNat - a.config.maxCascadeDepth.toNat - 1) a.config.maxCascadeDepth.toNat 0 event a
  cases c with
  | start data =>
    rw [call, call, startWith, startWith, send, send]
    rw [show (a.withLimit limit).current = a.current from rfl]
    split
    · rw [show (a.withLimit limit).config.maxCascadeDepth.toNat = _ from hlimit]
      exact hsettle data initEvent
    · simp only [pure_bind, givenUp?_ok, if_true]
      rfl
  | send event data =>
    rw [call, call, send, send]
    rw [show (a.withLimit limit).config.maxCascadeDepth.toNat = _ from hlimit]
    exact hsettle data event

/-- **The limit is exact, and cuts short only what would go on.** Whatever the automaton, the event,
its data and the supplied code: a call fires at most one transition more than the limit. It is given
up if and only if it has fired as many and the last of them has entered a state that calls for an
event. Then the failure names the limit and this state, in which the automaton is left. A call that
rests after as many transitions is no failure. Without the passages, the call is what it was.

Under a larger limit the same call goes on where it would have been given up. If it would not have
been, it has the same effects, gives the same result and leaves the same automaton, but for the
limit. -/
theorem limit_of_call (a : Automaton m S E O) (c : Call E) :
    SatisfiesM (fun done => a.Limited done.1 done.2.1 done.2.2) (a.callTrail [] c) ∧
      Prod.snd <$> a.callTrail [] c = a.call c ∧
      ∀ limit, a.config.maxCascadeDepth < limit →
        (a.withLimit limit).call c
          = a.call c >>= fun done =>
              if givenUp? done.2 = none then pure (done.1.withLimit limit, done.2)
              else goOn c.data (limit.toNat - a.config.maxCascadeDepth.toNat - 1)
                (a.config.maxCascadeDepth.toNat + 1) (done.1.withLimit limit) :=
  ⟨limited_callTrail a c, map_snd_callTrail [] a c, fun _ h => call_withLimit a h c⟩

end Automaton

namespace Definition

/-- The definition with another limit. -/
def withLimit (limit : UInt64) (d : Definition m S E O) : Definition m S E O :=
  { d with config := { d.config with maxCascadeDepth := limit } }

theorem problems_withLimit (limit : UInt64) (d : Definition m S E O) :
    (d.withLimit limit).problems = d.problems :=
  rfl

/-- The limit has no part in whether a definition can be built. -/
theorem build_withLimit (limit : UInt64) (d : Definition m S E O) (settings : S) :
    (d.withLimit limit).build settings = (d.build settings).map (Automaton.withLimit limit) := by
  rw [build, build, problems_withLimit]
  cases d.problems with
  | nil =>
    dsimp only
    rw [apply_ite (Except.map (Automaton.withLimit limit))]
    rfl
  | cons _ _ => rfl

/-- A ball on the stairs. When it is pushed it rolls down to the floor, and when it is kicked it
spins. Actions are counted. -/
def ball : Definition (StateM Nat) Unit Unit String where
  states := [.leaf "top", .leaf "upper stair", .leaf "lower stair", .leaf "floor", .leaf "spinning"]
  events := ["push", "kick"]
  transitions :=
    [⟨rootState, some initEvent, [{ target := .state "top" }]⟩,
      ⟨"top", some "push", [{ target := .state "upper stair", action := some (strike "tick") }]⟩,
      ⟨"upper stair", none,
        [{ target := .state "lower stair", action := some (strike "tock") }]⟩,
      ⟨"lower stair", none, [{ target := .state "floor", action := some (strike "thud") }]⟩,
      ⟨"top", some "kick", [{ target := .state "spinning", action := some (strike "whirr") }]⟩,
      ⟨"spinning", none, [{ target := .state "spinning", action := some (strike "whirr") }]⟩]
  config := { maxCascadeDepth := 2 }

/-- The ball when it was just started. -/
def restingBall : Automaton (StateM Nat) Unit Unit String :=
  (((ball.realize () (.initial ball.model)).call (.start ())).run 0).1.1

/-- What comes of sending an event to the ball at rest. -/
def moved (event : String) :
    List (Passage (StateM Nat) Unit Unit String) × Automaton (StateM Nat) Unit Unit String ×
      Except Halt (Option String) :=
  ((restingBall.callTrail [] (.send event ())).run 0).1

theorem limit_of_call_ball :
    ball.build () = .ok (ball.realize () (.initial ball.model)) ∧
      restingBall.config.maxCascadeDepth < 3 ∧
      restingBall.Limited (moved "push").1 (moved "push").2.1 (moved "push").2.2 ∧
      restingBall.Limited (moved "kick").1 (moved "kick").2.1 (moved "kick").2.2 ∧
      (["push", "kick"].map fun event =>
          ((moved event).1.length, (moved event).2.1.current, (moved event).2.2))
        = [(3, "floor", .ok (some "thud")),
          (3, "spinning", .error (.failed (.cascadeLimitExceeded "spinning" 2)))] ∧
      (restingBall.withLimit 3).call (.send "kick" ())
        = restingBall.call (.send "kick" ()) >>= fun done =>
            if givenUp? done.2 = none then pure (done.1.withLimit 3, done.2)
            else Automaton.goOn ()
              ((3 : UInt64).toNat - restingBall.config.maxCascadeDepth.toNat - 1)
              (restingBall.config.maxCascadeDepth.toNat + 1) (done.1.withLimit 3) := by
  have hlimit : restingBall.config.maxCascadeDepth < 3 := by decide +kernel
  obtain ⟨hpush, -, -⟩ := Automaton.limit_of_call restingBall (.send "push" ())
  obtain ⟨hkick, -, hlarger⟩ := Automaton.limit_of_call restingBall (.send "kick" ())
  exact ⟨build_eq_ok_iff.mpr ⟨by decide, by decide, rfl⟩, hlimit, satisfiesM_iff_run.mp hpush 0,
    satisfiesM_iff_run.mp hkick 0, by decide +kernel, hlarger 3 hlimit⟩

/-- Where nothing may follow, the ball stops on the first stair, which is one transition. -/
example : ((((restingBall.withLimit 0).callTrail [] (.send "push" ())).run 0).1.1.length,
    (((restingBall.withLimit 0).callTrail [] (.send "push" ())).run 0).1.2.2)
      = (1, .error (.failed (.cascadeLimitExceeded "upper stair" 0))) := by
  decide +kernel

end Definition

end Reactive
