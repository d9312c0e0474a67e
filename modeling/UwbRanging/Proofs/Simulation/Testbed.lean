import UwbRanging.Proofs.Simulation.Understood

/-!
A simulated testbed over any number of rounds, between which the number of nodes and the settings are changed. Whatever
chance decides, each node announces itself once, before it measures anything, and a collector understands every line.
-/

namespace UwbRanging

open Telemetry

namespace SimulatedTestbed

section Signals

/-- The noise that was set last. -/
def noiseAfter (noise : Float) (signals : List SimulationSignal) : Float :=
  signals.foldl (fun noise signal => match signal with
    | .noise ticks => ticks
    | _ => noise) noise

/-- How many nodes take part after some signals. There are never more nodes than places. -/
def nodesAfter (places nodes : ℕ) (signals : List SimulationSignal) : ℕ :=
  signals.foldl (fun nodes signal => match signal with
    | .nodes n => min n places
    | _ => nodes) nodes

/-- The parameter that was set last. -/
def parameterAfter (parameter : UInt32) (signals : List SimulationSignal) : UInt32 :=
  signals.foldl (fun parameter signal => match signal with
    | .parameter p => p
    | _ => parameter) parameter

theorem nodesAfter_append (places nodes : ℕ) (earlier later : List SimulationSignal) :
    nodesAfter places nodes (earlier ++ later) = nodesAfter places (nodesAfter places nodes earlier) later :=
  List.foldl_append

theorem parameterAfter_append (parameter : UInt32) (earlier later : List SimulationSignal) :
    parameterAfter parameter (earlier ++ later) = parameterAfter (parameterAfter parameter earlier) later :=
  List.foldl_append

theorem noiseAfter_append (noise : Float) (earlier later : List SimulationSignal) :
    noiseAfter noise (earlier ++ later) = noiseAfter (noiseAfter noise earlier) later :=
  List.foldl_append

theorem jitterFits_noiseAfter {noise : Float} (h : JitterFits noise) {signals : List SimulationSignal}
    (hsignals : ∀ ticks, .noise ticks ∈ signals → JitterFits ticks) : JitterFits (noiseAfter noise signals) := by
  induction signals generalizing noise with
  | nil => exact h
  | cons signal signals ih =>
      have hrest : ∀ ticks, .noise ticks ∈ signals → JitterFits ticks :=
        fun ticks hticks => hsignals ticks (List.mem_cons_of_mem _ hticks)
      cases signal with
      | noise ticks => exact ih (hsignals ticks List.mem_cons_self) hrest
      | nodes _ => exact ih h hrest
      | parameter _ => exact ih h hrest

theorem nodesAfter_le {places nodes : ℕ} (h : nodes ≤ places) (signals : List SimulationSignal) :
    nodesAfter places nodes signals ≤ places := by
  induction signals generalizing nodes with
  | nil => exact h
  | cons signal signals ih =>
      cases signal with
      | nodes n => exact ih (Nat.min_le_right n places)
      | noise _ => exact ih h
      | parameter _ => exact ih h

theorem queue_foldl_change (t : SimulatedTestbed) (signals : List SimulationSignal) :
    (signals.foldl change t).queue = t.queue := by
  induction signals generalizing t with
  | nil => rfl
  | cons signal signals ih => exact ih (t.change signal)

end Signals

/-- Some rounds of a testbed. Before each round it receives signals. -/
def runRounds (t : SimulatedTestbed) (rounds : List (List SimulationSignal)) : Random SimulatedTestbed :=
  rounds.foldlM (fun t signals => (signals.foldl change t).round) t

/-- Where the nodes of a testbed stand, and those that may still come. -/
def places (settings : SimulationSettings) (source : RandomSource) : List (Spot Float) :=
  ((drawSpots (max settings.nodes minSpots)).run source).1

/-- What is printed in some rounds, if nobody takes any of the lines: a refusal if a round is refused, and nothing if a
round never ends. -/
def printed (settings : SimulationSettings) (rounds : List (List SimulationSignal)) (source : RandomSource) :
    Option (Except DrawError (List StreamLine)) :=
  (Random.outcome (Random.ofWords (start settings) >>= (runRounds · rounds)) source).map
    (Except.map fun next => next.1.queue)

/-- A node takes part in one of the rounds. -/
def TakesPart (settings : SimulationSettings) (rounds : List (List SimulationSignal)) (index : ℕ) : Prop :=
  ∃ before signals, before ++ [signals] <+: rounds ∧
    index < nodesAfter (max settings.nodes minSpots) settings.nodes (before ++ [signals]).flatten

variable {settings : SimulationSettings} {rounds : List (List SimulationSignal)} {index : ℕ}

theorem not_takesPart_nil : ¬ TakesPart settings [] index := by
  rintro ⟨before, signals, hprefix, -⟩
  exact absurd (List.prefix_nil.1 hprefix) (List.concat_ne_nil _ _)

theorem takesPart_concat {signals : List SimulationSignal} : TakesPart settings (rounds ++ [signals]) index ↔
    TakesPart settings rounds index ∨
      index < nodesAfter (max settings.nodes minSpots) settings.nodes (rounds ++ [signals]).flatten := by
  constructor
  · rintro ⟨before, signals', hprefix, hindex⟩
    rcases List.prefix_concat_iff.1 hprefix with heq | hprefix
    · exact .inr (heq ▸ hindex)
    · exact .inl ⟨before, signals', hprefix, hindex⟩
  · rintro (⟨before, signals', hprefix, hindex⟩ | hindex)
    · exact ⟨before, signals', hprefix.trans (List.prefix_append _ _), hindex⟩
    · exact ⟨rounds, signals, List.prefix_rfl, hindex⟩

theorem TakesPart.lt (h : TakesPart settings rounds index) : index < max settings.nodes minSpots := by
  obtain ⟨before, signals, -, hindex⟩ := h
  exact hindex.trans_le (nodesAfter_le (Nat.le_max_left _ _) _)

theorem runRounds_append (t : SimulatedTestbed) (earlier later : List (List SimulationSignal)) :
    runRounds t (earlier ++ later) = runRounds t earlier >>= fun t => runRounds t later :=
  List.foldlM_append

theorem runRounds_concat (t : SimulatedTestbed) (rounds : List (List SimulationSignal))
    (signals : List SimulationSignal) :
    runRounds t (rounds ++ [signals]) = runRounds t rounds >>= fun t => (signals.foldl change t).round := by
  simp [runRounds, List.foldlM_append]

theorem runRounds_singleton (t : SimulatedTestbed) (signals : List SimulationSignal) :
    runRounds t [signals] = (signals.foldl change t).round := by
  simp [runRounds]

/-- What a testbed is after some rounds, and some signals since. -/
structure Reached (settings : SimulationSettings) (spots : List (Spot Float))
    (rounds : List (List SimulationSignal)) (signals : List SimulationSignal) (t : SimulatedTestbed) : Prop where
  running : t.running = true
  spots : t.spots = spots
  nodes : t.settings.nodes = nodesAfter (max settings.nodes minSpots) settings.nodes (rounds ++ [signals]).flatten
  noise : t.settings.noise = noiseAfter settings.noise (rounds ++ [signals]).flatten
  outlierRate : t.settings.outlierRate = settings.outlierRate
  parameter : t.settings.parameter = parameterAfter settings.parameter (rounds ++ [signals]).flatten
  queue : Printed t.announced t.queue
  announced : ∀ i, i < t.announced ↔ TakesPart settings rounds i

/-- What is printed in a round: the announcements of the nodes that take part for the first time, and after them what
all nodes that take part print about their exchanges, with the noise and the parameter in force. -/
def RoundLines (settings : SimulationSettings) (spots : List (Spot Float)) (before : List (List SimulationSignal))
    (signals : List SimulationSignal) (lines : List StreamLine) : Prop :=
  ∃ (newcomers : List ℕ) (ranging : List StreamLine), lines = newcomers.flatMap announcement ++ ranging ∧
    newcomers.Pairwise (· < ·) ∧
    (∀ i, i ∈ newcomers ↔ TakesPart settings (before ++ [signals]) i ∧ ¬ TakesPart settings before i) ∧
    RoundPrinted (noiseAfter settings.noise (before ++ [signals]).flatten)
      (parameterAfter settings.parameter (before ++ [signals]).flatten)
      (spots.take (nodesAfter (max settings.nodes minSpots) settings.nodes (before ++ [signals]).flatten)) ranging

theorem word_drawSpots (n : ℕ) (source : RandomSource) :
    ((drawSpots (α := Float) n).run source).2.word = source.word := by
  induction n generalizing source with
  | zero => rfl
  | succ n ih => exact ih ⟨source.word, source.used + 1 + 1⟩

theorem length_drawSpots (n : ℕ) (source : RandomSource) : ((drawSpots (α := Float) n).run source).1.length = n := by
  induction n generalizing source with
  | zero => rfl
  | succ n ih => exact congrArg (· + 1) (ih ⟨source.word, source.used + 1 + 1⟩)

theorem queue_start (settings : SimulationSettings) (source : RandomSource) :
    ((start settings).run source).1.queue = [] :=
  rfl

theorem word_start (settings : SimulationSettings) (source : RandomSource) :
    ((start settings).run source).2.word = source.word :=
  word_drawSpots _ source

theorem length_places (settings : SimulationSettings) (source : RandomSource) :
    (places settings source).length = max settings.nodes minSpots :=
  length_drawSpots _ source

theorem reached_start (settings : SimulationSettings) (source : RandomSource) :
    Reached settings (places settings source) [] [] ((start settings).run source).1 :=
  ⟨rfl, rfl, rfl, rfl, rfl, rfl, .nil, fun i => iff_of_false (Nat.not_lt_zero i) not_takesPart_nil⟩

namespace Reached

variable {spots : List (Spot Float)} {signals : List SimulationSignal} {t : SimulatedTestbed}
  (hlength : spots.length = max settings.nodes minSpots)

include hlength in
theorem change (h : Reached settings spots rounds signals t) (signal : SimulationSignal) :
    Reached settings spots rounds (signals ++ [signal]) (t.change signal) := by
  have hflatten : (rounds ++ [signals ++ [signal]]).flatten = (rounds ++ [signals]).flatten ++ [signal] := by simp
  refine { h with nodes := ?_, noise := ?_, outlierRate := ?_, parameter := ?_ }
  · rw [hflatten, nodesAfter_append, ← h.nodes]
    cases signal with
    | nodes n => exact congrArg (min n) (h.spots ▸ hlength)
    | noise _ => rfl
    | parameter _ => rfl
  · rw [hflatten, noiseAfter_append, ← h.noise]
    cases signal <;> rfl
  · cases signal <;> exact h.outlierRate
  · rw [hflatten, parameterAfter_append, ← h.parameter]
    cases signal <;> rfl

include hlength in
theorem foldl_change (h : Reached settings spots rounds [] t) (signals : List SimulationSignal) :
    Reached settings spots rounds signals (signals.foldl SimulatedTestbed.change t) := by
  induction signals using List.reverseRecOn with
  | nil => exact h
  | append_singleton signals signal ih =>
      rw [List.foldl_append]
      exact ih.change hlength signal

theorem present_eq (h : Reached settings spots rounds signals t) :
    t.present = spots.take (nodesAfter (max settings.nodes minSpots) settings.nodes (rounds ++ [signals]).flatten) := by
  rw [present, h.spots, h.nodes]

include hlength in
theorem length_present (h : Reached settings spots rounds signals t) : t.present.length =
    nodesAfter (max settings.nodes minSpots) settings.nodes (rounds ++ [signals]).flatten := by
  rw [h.present_eq, List.length_take, hlength]
  exact Nat.min_eq_left (nodesAfter_le (Nat.le_max_left _ _) _)

theorem announced_le (h : Reached settings spots rounds signals t) : t.announced ≤ max settings.nodes minSpots :=
  Nat.le_of_not_lt fun hlt => (Nat.lt_irrefl _ ((h.announced _).1 hlt).lt).elim

include hlength in
/-- A round adds lines to those that are there. -/
theorem gives_round (h : Reached settings spots rounds signals t) (hnoise : JitterFits t.settings.noise)
    (hrate : t.settings.outlierRate.isNaN = false) : Random.Gives Random.Barren t.round fun t' =>
      Reached settings spots (rounds ++ [signals]) [] t' ∧
        ∃ lines, t'.queue = t.queue ++ lines ∧ RoundLines settings spots rounds signals lines := by
  have hflatten : (rounds ++ [signals] ++ [[]]).flatten = (rounds ++ [signals]).flatten := by simp
  have hpresent := h.length_present hlength
  rw [round, h.running]
  refine (gives_nextLines hnoise hrate).bind fun lines hlines => Random.gives_pure ?_
  obtain ⟨ranging, rfl, hranging⟩ := hlines
  have hannounced (i : ℕ) : i < max t.announced t.present.length ↔ TakesPart settings (rounds ++ [signals]) i := by
    rw [takesPart_concat, ← h.announced, ← hpresent]
    exact lt_max_iff
  refine ⟨⟨rfl, h.spots, hflatten ▸ h.nodes, hflatten ▸ h.noise, h.outlierRate, hflatten ▸ h.parameter, ?_, hannounced⟩,
    _, rfl, _, ranging, rfl, List.pairwise_lt_range', fun i => ?_, ?_⟩
  · have hnewcomers : max t.announced t.present.length = t.announced + (t.present.length - t.announced) := by omega
    have hstarted : ∀ line ∈ ranging, ∃ i < t.announced + (t.present.length - t.announced),
        RangingLine t.settings.parameter (streamOf i) line := by
      intro line hline
      obtain ⟨i, hi, hline⟩ := hranging.rangingLine line hline
      exact ⟨i, by omega, hline⟩
    simp only [hnewcomers, ← List.append_assoc]
    exact (h.queue.announcements _).rangings hstarted
  · rw [List.mem_range'_1, ← hannounced, ← h.announced]
    omega
  · rw [← h.noise, ← h.parameter, ← h.present_eq]
    exact hranging

include hlength in
/-- With more than one node, a round for which no jitter can be drawn is refused. -/
theorem refused_round (h : Reached settings spots rounds signals t)
    (hnodes : 2 ≤ nodesAfter (max settings.nodes minSpots) settings.nodes (rounds ++ [signals]).flatten)
    (hnoise : ¬ JitterFits (noiseAfter settings.noise (rounds ++ [signals]).flatten)) :
    Random.Refused Random.Barren .rangeOverflow t.round := by
  rw [← h.length_present hlength] at hnodes
  rw [← h.noise] at hnoise
  rw [round, h.running]
  exact ((refused_roundLines hnoise hnodes).bind _).bind _

end Reached

/-- Nothing more is printed once a round has been refused. -/
theorem queue_proceed {t : SimulatedTestbed} {source : RandomSource} {error : DrawError}
    (h : Random.outcome t.round source = some (.error error)) : (t.proceed source).1.queue = t.queue := by
  rw [proceed, show t.round.run source = some (.error error) from h]

section Runs

variable {t t' : SimulatedTestbed} {source rest : RandomSource} {lines : List StreamLine}

/-- What some rounds give, if jitter can be drawn in each of them. -/
theorem gives_runRounds (source : RandomSource) (hrate : settings.outlierRate.isNaN = false)
    (hnoise : JitterFits settings.noise) (hsignals : ∀ ticks, .noise ticks ∈ rounds.flatten → JitterFits ticks) :
    Random.Gives Random.Barren (runRounds ((start settings).run source).1 rounds)
      (Reached settings (places settings source) rounds []) := by
  have hlength := length_places settings source
  induction rounds using List.reverseRecOn with
  | nil => exact Random.gives_pure (reached_start settings source)
  | append_singleton rounds signals ih =>
      have hearlier : ∀ ticks, .noise ticks ∈ rounds.flatten → JitterFits ticks :=
        fun ticks hticks => hsignals ticks (by rw [List.flatten_append]; exact List.mem_append_left _ hticks)
      rw [runRounds_concat]
      refine (ih hearlier).bind fun t ht => ?_
      have hchanged := ht.foldl_change hlength signals
      exact (hchanged.gives_round hlength (hchanged.noise ▸ jitterFits_noiseAfter hnoise hsignals)
        (hchanged.outlierRate ▸ hrate)).mono fun _ => And.left

theorem queue_prefix_of_round (h : Random.outcome t.round source = some (.ok (t', rest))) : t.queue <+: t'.queue := by
  rw [round] at h
  split at h
  · cases h
    exact List.prefix_rfl
  · obtain ⟨lines, mid, -, hnext⟩ := Random.outcome_bind_eq_ok_iff.1 h
    cases hnext
    exact List.prefix_append _ _

/-- What has been printed stays. -/
theorem queue_prefix_of_runRounds (h : Random.outcome (runRounds t rounds) source = some (.ok (t', rest))) :
    t.queue <+: t'.queue := by
  induction rounds using List.reverseRecOn generalizing t' rest with
  | nil =>
      cases h
      exact List.prefix_rfl
  | append_singleton rounds signals ih =>
      rw [runRounds_concat] at h
      obtain ⟨earlier, mid, hearlier, hround⟩ := Random.outcome_bind_eq_ok_iff.1 h
      have hadded := queue_prefix_of_round hround
      rw [queue_foldl_change] at hadded
      exact (ih hearlier).trans hadded

theorem printed_eq (settings : SimulationSettings) (rounds : List (List SimulationSignal)) (source : RandomSource) :
    printed settings rounds source = (Random.outcome (runRounds ((start settings).run source).1 rounds)
      ((start settings).run source).2).map (Except.map fun next => next.1.queue) := by
  rw [printed, Random.outcome_bind]
  rfl

theorem printed_eq_ok_iff : printed settings rounds source = some (.ok lines) ↔
    ∃ t rest, Random.outcome (runRounds ((start settings).run source).1 rounds) ((start settings).run source).2 =
      some (.ok (t, rest)) ∧ t.queue = lines := by
  rw [printed_eq]
  cases Random.outcome (runRounds ((start settings).run source).1 rounds) ((start settings).run source).2 with
  | none => simp
  | some result =>
      cases result with
      | error e => simp [Except.map]
      | ok next =>
          obtain ⟨t, rest⟩ := next
          simp [Except.map]

variable (hrate : settings.outlierRate.isNaN = false) (hnoise : JitterFits settings.noise)
  (hsignals : ∀ ticks, .noise ticks ∈ rounds.flatten → JitterFits ticks)

include hrate hnoise hsignals

theorem gives_printed (source : RandomSource) :
    (printed settings rounds source = none ∧ Random.Barren source.word) ∨
      ∃ lines, printed settings rounds source = some (.ok lines) := by
  obtain ⟨hnone, hbarren⟩ | ⟨t, rest, hrun, -, -⟩ :=
    gives_runRounds source hrate hnoise hsignals ((start settings).run source).2
  · refine .inl ⟨by rw [printed_eq, hnone]; rfl, ?_⟩
    rwa [word_start] at hbarren
  · exact .inr ⟨_, printed_eq_ok_iff.2 ⟨t, rest, hrun, rfl⟩⟩

theorem reached_of_printed (h : printed settings rounds source = some (.ok lines)) :
    ∃ t, Reached settings (places settings source) rounds [] t ∧ t.queue = lines := by
  obtain ⟨t, rest, hrun, hqueue⟩ := printed_eq_ok_iff.1 h
  exact ⟨t, (gives_runRounds source hrate hnoise hsignals).of_outcome hrun, hqueue⟩

/-- What has been printed before a round, and what is printed in it. -/
theorem exists_round_of_printed (h : printed settings rounds source = some (.ok lines))
    {before : List (List SimulationSignal)} {signals : List SimulationSignal}
    (hrounds : before ++ [signals] <+: rounds) : ∃ earlier later,
      printed settings before source = some (.ok earlier) ∧
        printed settings (before ++ [signals]) source = some (.ok (earlier ++ later)) ∧ earlier ++ later <+: lines ∧
          RoundLines settings (places settings source) before signals later := by
  obtain ⟨after, rfl⟩ := hrounds
  obtain ⟨t, rest, hrun, rfl⟩ := printed_eq_ok_iff.1 h
  rw [runRounds_append] at hrun
  obtain ⟨t₂, mid₂, hthrough, hafter⟩ := Random.outcome_bind_eq_ok_iff.1 hrun
  have hboth := hthrough
  rw [runRounds_concat] at hthrough
  obtain ⟨t₁, mid₁, hbefore, hround⟩ := Random.outcome_bind_eq_ok_iff.1 hthrough
  have hearlier : ∀ ticks, .noise ticks ∈ before.flatten → JitterFits ticks :=
    fun ticks hticks => hsignals ticks (by simp [hticks])
  have hlength := length_places settings source
  have hreached := (gives_runRounds source hrate hnoise hearlier).of_outcome hbefore
  have hchanged := hreached.foldl_change hlength signals
  have hfits : JitterFits (noiseAfter settings.noise (before ++ [signals]).flatten) :=
    jitterFits_noiseAfter hnoise fun ticks hticks => hsignals ticks (by
      rw [List.flatten_append]
      exact List.mem_append_left _ hticks)
  obtain ⟨-, later, hqueue, hlater⟩ :=
    (hchanged.gives_round hlength (hchanged.noise ▸ hfits) (hchanged.outlierRate ▸ hrate)).of_outcome hround
  rw [queue_foldl_change] at hqueue
  refine ⟨t₁.queue, later, printed_eq_ok_iff.2 ⟨t₁, mid₁, hbefore, rfl⟩, ?_, ?_, hlater⟩
  · exact printed_eq_ok_iff.2 ⟨t₂, mid₂, hboth, hqueue⟩
  · rw [← hqueue]
    exact queue_prefix_of_runRounds hafter

end Runs

/-- The ranges of a round carry the parameter in force. -/
theorem RoundLines.parameter_eq {spots : List (Spot Float)} {signals : List SimulationSignal} {lines : List StreamLine}
    (h : RoundLines settings spots rounds signals lines) (hplaces : max settings.nodes minSpots ≤ UInt32.size)
    {line : StreamLine} (hline : line ∈ lines) {other : NodeId} {p : UInt32} {range : Float} {offset : Option ℤ}
    (hdecoded : decode line.text = .ok (.twoWayRange other p range offset)) :
    p = parameterAfter settings.parameter (rounds ++ [signals]).flatten := by
  obtain ⟨newcomers, ranging, rfl, -, hnewcomers, hranging⟩ := h
  rcases List.mem_append.1 hline with hline | hline
  · obtain ⟨i, hi, hline⟩ := List.mem_flatMap.1 hline
    have hindex : i < UInt32.size := ((hnewcomers i).1 hi).1.lt.trans_le hplaces
    obtain ⟨decoded, hmem, hannounced⟩ := decode_of_mem_announcement hindex hline
    rw [hdecoded, Except.ok.injEq] at hannounced
    simp [announcedTelemetry, ← hannounced] at hmem
  · obtain ⟨_, -, hline⟩ := hranging.rangingLine line hline
    obtain ⟨_, _, hmeasured⟩ | ⟨_, _, _, _, hmeasured⟩ := hline.decoded
    · rw [hdecoded] at hmeasured
      cases hmeasured
      rfl
    · rw [hdecoded] at hmeasured
      cases hmeasured

/-- As long as jitter can be drawn, no round is refused, whatever chance decides. However often the number of nodes
changes: the lines of a node begin with its announcement and go on with what it measured, in each round every two nodes
that take part print about their exchange, the ranges carry the parameter that was set last before the round, and a new
collector skips nothing. -/
theorem printed_understood (settings : SimulationSettings) (hnodes : settings.nodes ≤ 2 ^ 32 - 200)
    (hrate : settings.outlierRate.isNaN = false) (hnoise : JitterFits settings.noise)
    (rounds : List (List SimulationSignal)) (hsignals : ∀ ticks, .noise ticks ∈ rounds.flatten → JitterFits ticks)
    (source : RandomSource) :
    (∀ error, printed settings rounds source ≠ some (.error error)) ∧
    (¬ Random.Barren source.word → ∃ lines, printed settings rounds source = some (.ok lines)) ∧
    ∀ lines, printed settings rounds source = some (.ok lines) →
      (∀ i, TakesPart settings rounds i → ∃ measured, linesOf (streamOf i) lines = announcement i ++ measured ∧
        ∀ line ∈ measured, line ∉ announcement i ∧ ∃ parameter, RangingLine parameter (streamOf i) line) ∧
      (∀ line ∈ lines, ∃ i, TakesPart settings rounds i ∧ line.stream = streamOf i) ∧
      (∀ before signals, before ++ [signals] <+: rounds → ∃ earlier later,
        printed settings before source = some (.ok earlier) ∧
          printed settings (before ++ [signals]) source = some (.ok (earlier ++ later)) ∧ earlier ++ later <+: lines ∧
            RoundLines settings (places settings source) before signals later ∧
              ∀ line ∈ later, ∀ other p range offset, decode line.text = .ok (.twoWayRange other p range offset) →
                p = parameterAfter settings.parameter (before ++ [signals]).flatten) ∧
      ∀ collecting : CollectorSettings Float, ((Collector.new collecting).consumeAll lines).recorded = lines.length ∧
        ((Collector.new collecting).consumeAll lines).skipped = 0 := by
  have hplaces : max settings.nodes minSpots ≤ UInt32.size := by
    rw [minSpots, UInt32.size]
    omega
  have hgives := gives_printed hrate hnoise hsignals source
  refine ⟨fun error herror => ?_, fun hfertile => hgives.resolve_left fun hendless => hfertile hendless.2,
    fun lines hprinted => ?_⟩
  · obtain ⟨hnone, -⟩ | ⟨lines, hlines⟩ := hgives
    · rw [herror] at hnone
      cases hnone
    · rw [herror] at hlines
      cases hlines
  obtain ⟨t, hreached, rfl⟩ := reached_of_printed hrate hnoise hsignals hprinted
  refine ⟨fun i hi => ?_, fun line hline => ?_, fun before signals hprefix => ?_, fun collecting => ?_⟩
  · obtain ⟨measured, hlines, hmeasured⟩ := hreached.queue.linesOf_eq ((hreached.announced i).2 hi)
    refine ⟨measured, hlines, fun line hline => ?_⟩
    obtain ⟨parameter, hranging⟩ := hmeasured line hline
    exact ⟨hranging.not_mem_announcement (hi.lt.trans_le hplaces), parameter, hranging⟩
  · obtain ⟨i, hi, hstream⟩ := hreached.queue.stream_of_mem line hline
    exact ⟨i, (hreached.announced i).1 hi, hstream⟩
  · obtain ⟨earlier, later, hbefore, hthrough, hkept, hround⟩ :=
      exists_round_of_printed hrate hnoise hsignals hprinted hprefix
    exact ⟨earlier, later, hbefore, hthrough, hkept, hround,
      fun line hline _ _ _ _ hdecoded => hround.parameter_eq hplaces hline hdecoded⟩
  · have hskipped : ((Collector.new collecting).consumeAll t.queue).skipped = 0 :=
      (Collector.understands_of_printed collecting hreached.queue (hreached.announced_le.trans hplaces)).skipped
    have hbalance := (Collector.balanced_consumeAll collecting t.queue).every_line
    rw [hskipped, Nat.add_zero] at hbalance
    exact ⟨hbalance, hskipped⟩

/-- A testbed of four nodes, with two of them from the second round on, and six from the third. -/
theorem printed_understood_fewer_then_more :
    let rounds : List (List SimulationSignal) := [[], [.nodes 2, .parameter 7], [.nodes 6, .noise 0]]
    SimulationSettings.default.nodes ≤ 2 ^ 32 - 200 ∧ SimulationSettings.default.outlierRate.isNaN = false ∧
      JitterFits SimulationSettings.default.noise ∧ (∀ ticks, .noise ticks ∈ rounds.flatten → JitterFits ticks) ∧
        ∃ lines, printed .default rounds (.cycle [0, 9223372036854775808]) = some (.ok lines) ∧
          (∃ measured, linesOf (streamOf 5) lines = announcement 5 ++ measured) ∧
            ((Collector.new ⟨.centimeters, 1, .asymmetric⟩).consumeAll lines).skipped = 0 := by
  intro rounds
  have hnodes : SimulationSettings.default.nodes ≤ 2 ^ 32 - 200 := by decide
  have hrate : SimulationSettings.default.outlierRate.isNaN = false := by decide +kernel
  have hnoise : JitterFits SimulationSettings.default.noise := by decide +kernel
  have hsignals : ∀ ticks, .noise ticks ∈ rounds.flatten → JitterFits ticks := by
    intro ticks hticks
    have hzero : ticks = 0 := by simpa [rounds] using hticks
    rw [hzero]
    decide +kernel
  have hfertile : ¬ Random.Barren (RandomSource.cycle [0, 9223372036854775808]).word := by
    rintro ⟨n, hnever⟩
    exact hnever (2 * n) (by omega) (by simp [RandomSource.cycle])
  obtain ⟨-, hends, hunderstood⟩ := printed_understood .default hnodes hrate hnoise rounds hsignals
    (.cycle [0, 9223372036854775808])
  obtain ⟨lines, hlines⟩ := hends hfertile
  obtain ⟨hannounced, -, -, hcollected⟩ := hunderstood lines hlines
  have hfifth : TakesPart .default rounds 5 :=
    ⟨[[], [.nodes 2, .parameter 7]], [.nodes 6, .noise 0], List.prefix_rfl, by decide⟩
  obtain ⟨measured, hmeasured, -⟩ := hannounced 5 hfifth
  exact ⟨hnodes, hrate, hnoise, hsignals, lines, hlines, ⟨measured, hmeasured⟩, (hcollected _).2⟩

/-- Noise that is finite, but more than half of the greatest number: the range of the jitter is too wide, and nobody
prints anything. -/
theorem printed_refused_wide_noise :
    let settings : SimulationSettings := { SimulationSettings.default with noise := 1e308 }
    let source := RandomSource.cycle [0]
    settings.noise.isFinite = true ∧ settings.outlierRate.isNaN = false ∧ settings.nodes ≤ 2 ^ 32 - 200 ∧
      TakesPart settings [[]] 0 ∧ printed settings [[]] source = some (.error .rangeOverflow) ∧
        (((start settings).run source).1.proceed ((start settings).run source).2).1.queue = [] := by
  intro settings source
  have hfertile : ¬ Random.Barren source.word := by
    rintro ⟨n, hnever⟩
    exact hnever n le_rfl (by simp [source, RandomSource.cycle, Nat.mod_one])
  have hrefused := (reached_start settings source).refused_round (length_places settings source) (by decide)
    (by decide +kernel)
  have hround : Random.outcome ((start settings).run source).1.round ((start settings).run source).2 =
      some (.error .rangeOverflow) := by
    refine (hrefused ((start settings).run source).2).resolve_left fun hendless => ?_
    rw [word_start] at hendless
    exact hfertile hendless.2
  refine ⟨by decide +kernel, by decide +kernel, by decide, ⟨[], [], List.prefix_rfl, by decide⟩, ?_, ?_⟩
  · rw [printed_eq, runRounds_singleton, List.foldl_nil, hround]
    rfl
  · exact (queue_proceed hround).trans (queue_start settings source)

end SimulatedTestbed

end UwbRanging
