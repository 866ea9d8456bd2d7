import Reactive.Proofs.Integrity

/-!
# What traces tell

A trace is short, and runs are long: what does not fit is forgotten, the oldest first. What is left
is the end of one long walk. It began in the root, every firing leaves the state that was entered
before, and the last one leads to the present state. So the path that a trace tells is a walk that
the automaton has taken. Calls that end badly do not interrupt it, because what fired in them has
fired.

A trace is written and never read. Two automata that are alike but for the capacities of their
traces stay so, and give the same results.

## Main definitions

* `Trace.Keeps` — a trace and all that was recorded
* `Firing.Precedes` — one firing right after another
* `Definition.Traced` — what is true of a trace after every call
* `Automaton.untraced` — all but the trace

## Main results

* `Trace.Keeps.record`, `Trace.Keeps.entries_eq_drop`
* `Trace.zip_tail_pathOf`, `Trace.getLast?_pathOf` — paths of firings
* `Automaton.map_untraced_run` — traces have no influence
* `Definition.trace_of_build`
-/

namespace Reactive

/-! ### Keeping the latest entries -/

namespace Trace

variable {α : Type}

/-- A trace holds the latest entries of a log as far as its capacity allows. The log has the latest
entry first. -/
def Keeps (trace : Trace α) (log : List α) : Prop :=
  trace.entries = (log.take trace.capacity.toNat).reverse

theorem keeps_ofCapacity (capacity : UInt64) : (ofCapacity capacity : Trace α).Keeps [] := by
  rw [Keeps, List.take_nil]
  rfl

namespace Keeps

variable {trace : Trace α} {log : List α}

theorem length_eq (h : trace.Keeps log) : trace.length = min trace.capacity.toNat log.length := by
  rw [Trace.length, h, List.length_reverse, List.length_take]

theorem entries_eq_drop (h : trace.Keeps log) :
    trace.entries = log.reverse.drop (log.length - trace.capacity.toNat) := by
  rw [h, List.reverse_take]

/-- **Recording keeps the latest entries.** A trace that is full lets go of the oldest. -/
theorem record (h : trace.Keeps log) (entry : α) : (trace.record entry).Keeps (entry :: log) := by
  have hlength : trace.entries.length = min trace.capacity.toNat log.length := h.length_eq
  rw [Keeps, capacity_record, Trace.record]
  split
  · next hnone => simpa [Keeps, hnone] using h
  · next hsome =>
    obtain ⟨n, hn⟩ := Nat.exists_eq_succ_of_ne_zero fun h0 => hsome (UInt64.toNat.inj h0)
    rw [Keeps, hn] at h
    rw [hn, List.take_succ_cons, List.reverse_cons]
    split
    · next hfull =>
      have hdrop : trace.entries.drop 1 = (log.take n).reverse := by
        rw [h, List.drop_reverse, List.take_take, List.length_take]
        congr 2
        omega
      exact congrArg (· ++ [entry]) hdrop
    · next hroom =>
      have htake : log.take (n + 1) = log.take n := by
        rw [List.take_of_length_le (by omega), List.take_of_length_le (by omega)]
      exact congrArg (· ++ [entry]) (h.trans (congrArg List.reverse htake))

end Keeps

end Trace

/-! ### Walks -/

/-- `g` may have fired right after `f`: it leaves the state that was entered, and it is the first
transition of its call or the next one of the same call. -/
structure Firing.Precedes (f g : Firing) : Prop where
  target_eq : f.target = g.source
  depth_eq : g.depth = 0 ∨ g.depth.toNat = f.depth.toNat + 1

/-- The depths in a log, the latest first, are those of transitions in the order in which calls make
them. -/
def Counted : List Firing → Prop
  | [] => True
  | g :: log => (g.depth = 0 ∨ ∃ f ∈ log.head?, g.depth.toNat = f.depth.toNat + 1) ∧ Counted log

/-- In a log every firing precedes the one before it, the latest being first. -/
theorem Connected.isChain {log : List Firing} {current : String} (h : Connected log current)
    (hcounted : Counted log) : log.IsChain fun g f => f.Precedes g := by
  induction log generalizing current with
  | nil => exact .nil
  | cons g log ih =>
    have hrest := ih h.2 hcounted.2
    cases log with
    | nil => exact .singleton g
    | cons f log =>
      refine .cons_cons ⟨h.2.1.symm, hcounted.1.imp_right ?_⟩ hrest
      rintro ⟨_, ⟨⟩, hdepth⟩
      exact hdepth

/-- The latest transition entered the present state. -/
theorem Connected.target_head? {log : List Firing} {current : String} (h : Connected log current) :
    ∀ f ∈ log.head?, f.target = current := by
  cases log with
  | nil => rintro _ ⟨⟩
  | cons g log =>
    rintro _ ⟨⟩
    exact h.1.symm

/-- The first transition of all left the root. -/
theorem Connected.getLast? {log : List Firing} {current : String} (h : Connected log current)
    (hcounted : Counted log) : ∀ f ∈ log.getLast?, f.source = rootState ∧ f.depth = 0 := by
  induction log generalizing current with
  | nil => rintro _ ⟨⟩
  | cons g log ih =>
    cases log with
    | nil =>
      rintro _ ⟨⟩
      refine ⟨h.2, hcounted.1.resolve_right ?_⟩
      rintro ⟨_, ⟨⟩, -⟩
    | cons f log =>
      rw [List.getLast?_cons_cons]
      exact ih h.2 hcounted.2

namespace Trace

/-- **The steps of a path** are the firings that it tells of. -/
theorem zip_tail_pathOf {firings : List Firing} (h : firings.IsChain Firing.Precedes) :
    (pathOf firings).zip (pathOf firings).tail
      = firings.map fun f => (f.source, f.target) := by
  cases firings with
  | nil => rfl
  | cons f rest =>
    rw [pathOf, List.tail_cons, List.zip_cons_cons, List.map_cons]
    congr 1
    induction rest generalizing f with
    | nil => rfl
    | cons g rest ih =>
      obtain ⟨hfg, hrest⟩ := List.isChain_cons_cons.mp h
      rw [List.map_cons, List.map_cons, List.zip_cons_cons, hfg.target_eq, ih g hrest]

/-- A path ends where the last firing led. -/
theorem getLast?_pathOf (firings : List Firing) :
    (pathOf firings).getLast? = firings.getLast?.map Firing.target := by
  cases firings with
  | nil => rfl
  | cons f rest =>
    rw [pathOf, List.getLast?_cons_cons, ← List.map_cons, List.getLast?_map]

end Trace

namespace Definition

variable {m : Type → Type} {S E O : Type} {d : Definition m S E O} {settings : S}

/-- The trace of a standing keeps the latest of its log. -/
theorem keeps_traceOf (log : List Firing) :
    (d.traceOf log).capacity = d.config.traceCapacity ∧ (d.traceOf log).Keeps log := by
  induction log with
  | nil => exact ⟨rfl, Trace.keeps_ofCapacity d.config.traceCapacity⟩
  | cons f log ih => exact ⟨(Trace.capacity_record _ f).trans ih.1, ih.2.record f⟩

/-- All that has fired along a trail, the oldest first. -/
def fired (trail : List (Passage m S E O)) : List Firing := (trail.map Passage.firing).reverse

/-- What is true of the trace of an automaton, whose definition has set its capacity, after the
passages of a trail. -/
structure Traced (d : Definition m S E O) (trail : List (Passage m S E O))
    (a : Automaton m S E O) : Prop where
  /-- What has fired is what passages did, each by a branch that handled its event. -/
  lawful : ∀ p ∈ trail, p.Lawful
  /-- It is one walk, with the depths that calls give to their transitions. -/
  fired_chain : (fired trail).IsChain Firing.Precedes
  fired_head : ∀ f ∈ (fired trail).head?, f.source = rootState ∧ f.depth = 0
  /-- The trace holds the latest of what has fired, in order. -/
  entries_eq : a.trace.entries
    = (fired trail).drop ((fired trail).length - d.config.traceCapacity.toNat)
  length_eq : a.trace.length = min d.config.traceCapacity.toNat (fired trail).length
  entries_chain : a.trace.entries.IsChain Firing.Precedes
  entries_getLast : ∀ f ∈ a.trace.entries.getLast?, f.target = a.current
  /-- If nothing has been forgotten, it begins in the root. -/
  entries_head : (fired trail).length ≤ d.config.traceCapacity.toNat →
    ∀ f ∈ a.trace.entries.head?, f.source = rootState
  /-- The path goes step by step through what has fired, and ends in the present state. There is
  none if the trace holds nothing. -/
  path_steps : a.trace.path.zip a.trace.path.tail
    = a.trace.entries.map fun f => (f.source, f.target)
  path_getLast : a.trace.path.getLast? = if a.trace.isEmpty then none else some a.current

/-- What is kept: the walk, and how it was made. -/
def Recounts (d : Definition m S E O) (settings : S) (trail : List (Passage m S E O))
    (a : Automaton m S E O) : Prop :=
  d.Attains settings trail a ∧ Counted (trail.map Passage.firing) ∧ ∀ p ∈ trail, p.Lawful

/-- Calls are given up long before depths do not fit into firings. -/
theorem toNat_depth_firing {p : Passage m S E O} {n : Nat} (hn : n ≤ p.depth)
    {earlier : List (Passage m S E O)} (h : p.Follows earlier) : (UInt64.ofNat n).toNat = n :=
  UInt64.toNat_ofNat_of_lt' (Nat.lt_of_le_of_lt (hn.trans h.depth_le) (UInt64.toNat_lt _))

/-- **Passages in the order of calls make walks.** -/
theorem keptInOrder_recounts (h : d.problems = []) : KeptInOrder (d.Recounts settings) where
  passage := by
    rintro trail p hp hfollows ⟨hattains, hcounted, hlawful⟩
    refine ⟨(kept_attains h).passage hp hattains, ⟨?_, hcounted⟩,
      List.forall_mem_cons.mpr ⟨hp, hlawful⟩⟩
    refine hfollows.depth_eq.imp (congrArg UInt64.ofNat) ?_
    rintro ⟨q, hq, hdepth⟩
    refine ⟨q.firing, ?_, ?_⟩
    · rw [Option.mem_def] at hq ⊢
      rw [List.head?_map, hq, Option.map_some]
    · show (UInt64.ofNat p.depth).toNat = (UInt64.ofNat q.depth).toNat + 1
      rw [toNat_depth_firing le_rfl hfollows, toNat_depth_firing (by omega) hfollows, hdepth]
  drop := fun ⟨hattains, hrest⟩ => ⟨(kept_attains h).drop hattains, hrest⟩

theorem Recounts.traced {trail : List (Passage m S E O)} {a : Automaton m S E O}
    (h : d.Recounts settings trail a) : d.Traced trail a := by
  obtain ⟨⟨s, rfl, hlog, hsound⟩, hcounted, hlawful⟩ := h
  obtain ⟨hcapacity, hkeeps⟩ := keeps_traceOf (d := d) s.log
  have hconnected := hsound.connected
  have hfired : fired trail = s.log.reverse := congrArg List.reverse hlog.symm
  rw [← hlog] at hcounted
  have hchain : (fired trail).IsChain Firing.Precedes := by
    rw [hfired, List.isChain_reverse]
    exact hconnected.isChain hcounted
  have hhead : ∀ f ∈ (fired trail).head?, f.source = rootState ∧ f.depth = 0 := by
    rw [hfired, List.head?_reverse]
    exact hconnected.getLast? hcounted
  have hentries : (d.traceOf s.log).entries
      = (fired trail).drop ((fired trail).length - d.config.traceCapacity.toNat) := by
    rw [hkeeps.entries_eq_drop, hcapacity, hfired, List.length_reverse]
  have hentriesChain : (d.traceOf s.log).entries.IsChain Firing.Precedes := by
    rw [hentries]
    exact hchain.drop _
  have hlast : ∀ f ∈ (d.traceOf s.log).entries.getLast?, f.target = s.current := by
    intro f hf
    rw [hkeeps, List.getLast?_reverse, List.head?_take] at hf
    split at hf
    · cases hf
    · exact hconnected.target_head? f hf
  exact
    { lawful := hlawful
      fired_chain := hchain
      fired_head := hhead
      entries_eq := hentries
      length_eq := by
        show (d.traceOf s.log).length = _
        rw [hkeeps.length_eq, hcapacity, hfired, List.length_reverse]
      entries_chain := hentriesChain
      entries_getLast := hlast
      entries_head := by
        intro hfew f hf
        change f ∈ (d.traceOf s.log).entries.head? at hf
        rw [hentries, Nat.sub_eq_zero_of_le hfew, List.drop_zero] at hf
        exact (hhead f hf).1
      path_steps := Trace.zip_tail_pathOf hentriesChain
      path_getLast := by
        show (d.traceOf s.log).path.getLast?
          = if (d.traceOf s.log).isEmpty then none else some s.current
        rw [Trace.path, Trace.getLast?_pathOf, Trace.isEmpty]
        cases hentry : (d.traceOf s.log).entries.getLast? with
        | none =>
          rw [List.getLast?_eq_none_iff.mp hentry]
          rfl
        | some f =>
          have hsome : (d.traceOf s.log).entries.isEmpty = false := by
            rw [List.isEmpty_eq_false_iff]
            intro hnil
            rw [hnil] at hentry
            cases hentry
          rw [Option.map_some, hlast f hentry, hsome]
          rfl }

end Definition

/-! ### Without the trace -/

namespace Automaton

variable {m : Type → Type} {S E O : Type}

/-- All of an automaton but its trace and the capacity of it. -/
def untraced (a : Automaton m S E O) : Automaton m S E O :=
  { a with config := { a.config with traceCapacity := 0 }, trace := .ofCapacity 0 }

/-- What is left of a call without the trace. -/
def untracedResult (done : Automaton m S E O × Except Halt (Option O)) :
    Automaton m S E O × Except Halt (Option O) :=
  (done.1.untraced, done.2)

@[simp] theorem untraced_table (a : Automaton m S E O) : a.untraced.table = a.table := rfl

@[simp] theorem untraced_current (a : Automaton m S E O) : a.untraced.current = a.current := rfl

@[simp] theorem untraced_maxCascadeDepth (a : Automaton m S E O) :
    a.untraced.config.maxCascadeDepth = a.config.maxCascadeDepth := rfl

/-- A transition without the trace is a transition, and then the trace is left out. -/
theorem unseen_untraced : Unseen (untraced : Automaton m S E O → Automaton m S E O) where
  table _ := rfl
  current _ := rfl
  model _ := rfl
  settings _ := rfl
  move _ _ _ _ _ := rfl

/-- What is left of a step without the trace. -/
def Step.untraced : Step m S E O → Step m S E O
  | .unhandled => .unhandled
  | .blocked => .blocked
  | .halted halt => .halted halt
  | .fired next output => .fired next.untraced output

variable [Monad m] [LawfulMonad m]

/-- A step does not look at the trace. -/
theorem map_untraced_step (a : Automaton m S E O) (event : String) (data : E) (depth : Nat) :
    Step.untraced <$> a.step event data depth = a.untraced.step event data depth := by
  have hstep : (Step.untraced : Step m S E O → Step m S E O) = Step.map untraced := by
    funext step
    cases step with
    | unhandled | blocked | halted _ | fired _ _ => rfl
  rw [hstep]
  exact unseen_untraced.map_step a event data depth

/-- Nor does what follows in a call. The induction is on the number of transitions that are left. -/
theorem map_untraced_settle (data : E) (remaining depth : Nat) (event : String)
    (a : Automaton m S E O) :
    untracedResult <$> settle data remaining depth event a
      = settle data remaining depth event a.untraced := by
  induction remaining using Nat.strongRecOn generalizing depth event a with
  | ind remaining ih =>
    rw [settle, settle, ← map_untraced_step, map_bind, bind_map_left]
    refine bind_congr fun step => ?_
    cases step with
    | unhandled =>
      rw [map_pure, untracedResult, apply_ite untraced]
      rfl
    | blocked | halted _ => exact map_pure ..
    | fired next output =>
      simp only [Step.untraced, untraced_table, untraced_current, untraced_maxCascadeDepth]
      cases next.table.cascadeEvent? next.current with
      | none => exact map_pure ..
      | some event' =>
        cases remaining with
        | zero => exact map_pure ..
        | succ remaining => exact ih remaining (Nat.lt_succ_self _) (depth + 1) event' next

theorem map_untraced_call (a : Automaton m S E O) (c : Call E) :
    untracedResult <$> a.call c = a.untraced.call c := by
  cases c with
  | start data =>
    rw [call, call, startWith, startWith, untraced_current]
    split
    · exact map_untraced_settle ..
    · exact map_pure ..
  | send event data => exact map_untraced_settle ..

/-- **A run does not look at the trace.** -/
theorem map_untraced_run (calls : List (Call E)) (a : Automaton m S E O) :
    List.map untracedResult <$> run calls a = run calls a.untraced := by
  induction calls generalizing a with
  | nil => exact map_pure ..
  | cons c rest ih =>
    rw [run, run, ← map_untraced_call, map_bind, bind_map_left]
    refine bind_congr fun done => ?_
    rw [show (untracedResult done).1 = done.1.untraced from rfl, ← ih, map_bind, bind_map_left]
    simp only [map_pure, List.map_cons]

end Automaton

namespace Definition

variable {m : Type → Type} {S E O : Type} [Monad m] [LawfulMonad m] {d : Definition m S E O}
  {settings : S} {a : Automaton m S E O}

/-- **Traces can be trusted, and have no influence.** After every call of every run, whether the
call succeeded, failed or crashed, the trace holds the latest of what has fired, as much as its
capacity allows and in order. What has fired is one walk from the root to the present state, and
what the trace holds is the end of it, so the path of the trace goes through firings of the run and
ends in the present state. Each transition is the first one of its call or has a depth of one more
than the transition right before it. Without the trail, the run is what the calls give. And whatever
the capacity, the runs of the built automata are the same but for the trace. -/
theorem trace_of_build (h : d.build settings = .ok a) (calls : List (Call E)) :
    SatisfiesM (fun dones => ∀ done ∈ dones, d.Traced done.1 done.2.1) (a.runTrail calls [])
      ∧ List.map Prod.snd <$> a.runTrail calls [] = a.run calls
      ∧ ∀ capacity b,
          { d with config := { d.config with traceCapacity := capacity } }.build settings = .ok b →
            List.map Automaton.untracedResult <$> b.run calls
              = List.map Automaton.untracedResult <$> a.run calls := by
  obtain ⟨hproblems, -, rfl⟩ := build_eq_ok_iff.mp h
  refine ⟨?_, Automaton.map_snd_runTrail calls [] _, fun capacity b hb => ?_⟩
  · have hinitial : d.Recounts settings [] (d.realize settings (.initial d.model)) :=
      ⟨attains_initial, True.intro, by rintro _ ⟨⟩⟩
    refine ((keptInOrder_recounts hproblems).runTrail calls hinitial).imp ?_
    exact fun hdones done hdone => (hdones done hdone).traced
  · obtain ⟨-, -, rfl⟩ := build_eq_ok_iff.mp hb
    rw [Automaton.map_untraced_run, Automaton.map_untraced_run]
    rfl

/-- A desk that remembers no more than two transitions. -/
def forgetfulDesk : Definition (StateM Nat) Unit Unit String :=
  { desk with config := { traceCapacity := 2 } }

theorem trace_of_build_forgetfulDesk :
    forgetfulDesk.build () = .ok (forgetfulDesk.realize () (.initial desk.model)) ∧
      desk.build () = .ok (desk.realize () (.initial desk.model)) ∧
      (∀ done ∈ (((forgetfulDesk.realize () (.initial desk.model)).runTrail deskDay []).run 0).1,
        forgetfulDesk.Traced done.1 done.2.1) ∧
      ((((forgetfulDesk.realize () (.initial desk.model)).runTrail deskDay []).run 0).1.map
          fun done => (done.1.length, done.2.1.trace.path))
        = [(2, [rootState, "open", "reading"]), (3, ["open", "reading", "writing"]),
          (3, ["open", "reading", "writing"]), (3, ["open", "reading", "writing"]),
          (4, ["reading", "writing", "closed"]), (5, ["writing", "closed", "writing"])] ∧
      List.map Automaton.untracedResult <$>
          (desk.realize () (.initial desk.model)).run deskDay
        = List.map Automaton.untracedResult <$>
          (forgetfulDesk.realize () (.initial desk.model)).run deskDay := by
  have hbuild : forgetfulDesk.build () = .ok (forgetfulDesk.realize () (.initial desk.model)) :=
    build_eq_ok_iff.mpr ⟨by decide, by decide, rfl⟩
  obtain ⟨htraced, -, hsame⟩ := trace_of_build hbuild deskDay
  exact ⟨hbuild, build_desk, satisfiesM_iff_run.mp htraced 0, by decide +kernel,
    hsame 64 _ build_desk⟩

end Definition

end Reactive
