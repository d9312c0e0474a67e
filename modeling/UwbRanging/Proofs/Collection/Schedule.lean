import UwbRanging.Collection.SerialSource
import UwbRanging.Proofs.Collection.Interleaving
import UwbRanging.Proofs.Collection.LineAssembly

/-!
Collection from several ports at once. Each reader takes bytes from its port and appends the lines that they complete
to the common queue, whenever it gets hold of the queue; the consumer takes lines from the queue and hands them to the
collector, whenever it polls. Nothing is assumed about who is next. Once all bytes are read and all lines have been
handed on, the collector is the same under every schedule, as long as each node address belongs to one port.
-/

namespace UwbRanging

namespace SerialSource

/-- What is in the queue already plays no part when bytes arrive. -/
theorem receive_eq (s : SerialSource) (port : String) (bytes : List UInt8) :
    s.receive port bytes =
      let fed := { s with queue := [] }.receive port bytes
      { fed with queue := s.queue ++ fed.queue } := by
  obtain ⟨readers, queue, running⟩ := s
  cases running <;> simp [receive]

/-- The lines that bytes complete are lines of the port at which they arrive. -/
theorem stream_of_mem_receive (s : SerialSource) (port : String) (bytes : List UInt8) :
    ∀ line ∈ ({ s with queue := [] }.receive port bytes).queue, line.stream = port := by
  intro line hline
  obtain ⟨readers, queue, running⟩ := s
  cases running with
  | false => cases hline
  | true =>
      simp only [receive, Bool.not_true, Bool.false_eq_true, if_false, List.nil_append, List.mem_flatMap,
        List.mem_map] at hline
      obtain ⟨fed, ⟨r, -, rfl⟩, hline⟩ := hline
      split at hline
      · rename_i hport
        obtain ⟨text, -, rfl⟩ := List.mem_map.1 hline
        simp only [Bool.and_eq_true, decide_eq_true_eq] at hport
        exact hport.1
      · cases hline

end SerialSource

/-- What can happen next while lines are collected. -/
inductive CollectionMove where
  /-- The reader of a port reads some bytes. It keeps the lines that they complete. -/
  | read (port : String) (bytes : List UInt8)
  /-- The reader of a port appends the lines it keeps to the queue. -/
  | append (port : String)
  /-- The consumer takes the oldest line from the queue, if there is one. -/
  | take
  /-- The consumer hands the lines it has taken to the collector. -/
  | consume

/-- A collection while it goes on. -/
structure LiveCollection where
  source : SerialSource
  /-- Lines that readers have completed and not yet appended to the queue. -/
  kept : List StreamLine
  /-- Lines that the consumer has taken from the queue and not yet handed on. -/
  taken : List StreamLine
  collector : Collector Float

namespace LiveCollection

/-- Readers at all ports, none of which has read anything. -/
def start (settings : CollectorSettings Float) (ports : List String) : LiveCollection where
  source := ⟨ports.map PortReader.new, [], true⟩
  kept := []
  taken := []
  collector := .new settings

def step (s : LiveCollection) : CollectionMove → LiveCollection
  | .read port bytes =>
    let fed := { s.source with queue := [] }.receive port bytes
    { s with source := { fed with queue := s.source.queue }, kept := s.kept ++ fed.queue }
  | .append port =>
    { s with
      source := { s.source with queue := s.source.queue ++ linesOf port s.kept }
      kept := s.kept.filter (·.stream ≠ port) }
  | .take =>
    match s.source.queue with
    | [] => s
    | line :: queue => { s with source := { s.source with queue }, taken := s.taken ++ [line] }
  | .consume => { s with collector := s.collector.consumeAll s.taken, taken := [] }

/-- The collection after some moves. -/
def after (s : LiveCollection) (moves : List CollectionMove) : LiveCollection :=
  moves.foldl step s

/-- A reader that is not kept waiting does what the source does when bytes arrive. -/
theorem after_read_append {s : LiveCollection} (hkept : s.kept = []) (port : String) (bytes : List UInt8) :
    s.after [.read port bytes, .append port] = { s with source := s.source.receive port bytes } := by
  obtain ⟨source, kept, taken, collector⟩ := s
  obtain rfl : kept = [] := hkept
  have hown := linesOf_eq_self (source.stream_of_mem_receive port bytes)
  have hothers : (({ source with queue := [] } : SerialSource).receive port bytes).queue.filter
      (·.stream ≠ port) = [] :=
    List.filter_eq_nil_iff.2 fun line hline => by simpa using source.stream_of_mem_receive port bytes line hline
  rw [source.receive_eq port bytes]
  simp only [after, step, List.foldl_cons, List.foldl_nil, List.nil_append, hown, hothers]

theorem after_takes (readers : List PortReader) (running : Bool) (queue kept taken : List StreamLine)
    (collector : Collector Float) :
    (LiveCollection.mk ⟨readers, queue, running⟩ kept taken collector).after
        (List.replicate queue.length .take) = ⟨⟨readers, [], running⟩, kept, taken ++ queue, collector⟩ := by
  induction queue generalizing taken with
  | nil => simp [after]
  | cons line queue ih =>
      have hrest := ih (taken ++ [line])
      rw [List.append_assoc, List.singleton_append] at hrest
      exact hrest

/-- A poll that nobody interrupts hands on what the source drains. -/
theorem after_poll {s : LiveCollection} (htaken : s.taken = []) :
    s.after (List.replicate s.source.queue.length .take ++ [.consume]) =
      { s with source := s.source.drain.2, collector := s.collector.consumeAll s.source.drain.1 } := by
  obtain ⟨⟨readers, queue, running⟩, kept, taken, collector⟩ := s
  obtain rfl : taken = [] := htaken
  have htakes := after_takes readers running queue kept [] collector
  rw [after] at htakes ⊢
  rw [List.foldl_append, htakes]
  rfl

/-- Nothing is under way any more between the readers and the collector. -/
def Drained (s : LiveCollection) : Prop :=
  s.kept = [] ∧ s.source.queue = [] ∧ s.taken = []

/-- The lines that are under way, those furthest on first. -/
def underWay (s : LiveCollection) : List StreamLine :=
  s.taken ++ s.source.queue ++ s.kept

end LiveCollection

/-- The bytes that are read at a port in the course of some moves. -/
def bytesRead (port : String) (moves : List CollectionMove) : List UInt8 :=
  moves.flatMap fun
    | .read p bytes => if p = port then bytes else []
    | _ => []

/-- The reader of a port that has read some bytes. -/
def PortReader.having (read : String → List UInt8) (port : String) : PortReader :=
  ⟨port, (LineAssembler.empty.push (read port)).2, true⟩

/-- The lines that further bytes complete at a port. -/
def completedLines (read : List UInt8) (port : String) (bytes : List UInt8) : List StreamLine :=
  ((LineAssembler.empty.push read).2.push bytes).1.map (StreamLine.mk port)

/-- What has been read at each port once some more bytes have been read at one of them. -/
def readingOn (read : String → List UInt8) (port : String) (bytes : List UInt8) : String → List UInt8 :=
  fun p => if p = port then read p ++ bytes else read p

theorem portLines_append (port : String) (read bytes : List UInt8) :
    portLines port (read ++ bytes) = portLines port read ++ completedLines read port bytes := by
  simp only [portLines, completedLines, LineAssembler.push_append, List.map_append]

theorem stream_of_mem_completedLines {read : List UInt8} {port : String} {bytes : List UInt8} {line : StreamLine}
    (h : line ∈ completedLines read port bytes) : line.stream = port := by
  obtain ⟨text, -, rfl⟩ := List.mem_map.1 h
  rfl

/-- Among distinct ports at most one is the one meant. -/
theorem flatMap_if_eq {β : Type} {ports : List String} (hports : ports.Nodup) (port : String)
    (f : String → List β) :
    (ports.flatMap fun p => if p = port then f p else []) = if port ∈ ports then f port else [] := by
  induction ports with
  | nil => rfl
  | cons p ports ih =>
      obtain ⟨hp, hports⟩ := List.nodup_cons.1 hports
      rw [List.flatMap_cons, ih hports]
      by_cases h : p = port
      · subst h
        simp [hp]
      · simp [h, Ne.symm h]

/-- Bytes that arrive at one of several ports reach the reader of that port only. -/
theorem receive_of_having {ports : List String} (hports : ports.Nodup) (read : String → List UInt8)
    (queue : List StreamLine) (port : String) (bytes : List UInt8) :
    (SerialSource.mk (ports.map (PortReader.having read)) queue true).receive port bytes =
      ⟨ports.map (PortReader.having (readingOn read port bytes)),
        queue ++ (if port ∈ ports then completedLines (read port) port bytes else []), true⟩ := by
  simp only [SerialSource.receive, Bool.not_true, Bool.false_eq_true, if_false, List.map_map, List.flatMap_map,
    SerialSource.mk.injEq, and_true]
  constructor
  · refine List.map_congr_left fun p _ => ?_
    by_cases h : p = port
    · simp [PortReader.having, PortReader.receive, readingOn, h, LineAssembler.push_append]
    · simp [PortReader.having, readingOn, h]
  · congr 1
    rw [← flatMap_if_eq hports port fun p => completedLines (read p) p bytes]
    refine List.flatMap_congr fun p _ => ?_
    by_cases h : p = port <;> simp [PortReader.having, PortReader.receive, completedLines, h]

/-- How far a collection has come: each reader has what was read at its port, and on every stream what has been
consumed and what is still under way are together the lines of the bytes that were read. -/
structure Progress (settings : CollectorSettings Float) (ports : List String) (read : String → List UInt8)
    (s : LiveCollection) : Prop where
  readers : s.source.readers = ports.map (PortReader.having read)
  running : s.source.running = true
  history : ∃ consumed, s.collector = (Collector.new settings).consumeAll consumed ∧
    ∀ p, linesOf p (consumed ++ s.underWay) = if p ∈ ports then portLines p (read p) else []

theorem Progress.start (settings : CollectorSettings Float) (ports : List String) :
    Progress settings ports (fun _ => []) (LiveCollection.start settings ports) where
  readers := rfl
  running := rfl
  history := ⟨[], rfl, fun p => by simp [LiveCollection.underWay, LiveCollection.start, linesOf, portLines,
    LineAssembler.push]⟩

section Step

variable {settings : CollectorSettings Float} {ports : List String} {read : String → List UInt8}
  {s : LiveCollection} (h : Progress settings ports read s)

include h

theorem Progress.after_read (hports : ports.Nodup) (port : String) (bytes : List UInt8) :
    Progress settings ports (readingOn read port bytes) (s.step (.read port bytes)) := by
  obtain ⟨⟨readers, queue, running⟩, kept, taken, collector⟩ := s
  obtain ⟨rfl, rfl, consumed, hcollector, hhistory⟩ := h
  have hreceive := receive_of_having hports read [] port bytes
  refine ⟨?_, ?_, consumed, hcollector, fun p => ?_⟩
  · simp only [LiveCollection.step, hreceive]
  · simp only [LiveCollection.step, hreceive]
  · have hold := hhistory p
    simp only [LiveCollection.step, hreceive, LiveCollection.underWay, List.nil_append, ← List.append_assoc]
    simp only [LiveCollection.underWay, ← List.append_assoc] at hold
    rw [linesOf_append, hold]
    by_cases hp : p ∈ ports
    · by_cases hpp : p = port
      · subst hpp
        rw [if_pos hp, if_pos hp, if_pos hp, readingOn, if_pos rfl, portLines_append,
          linesOf_eq_self fun line => stream_of_mem_completedLines]
      · have hnone : linesOf p (if port ∈ ports then completedLines (read port) port bytes else []) = [] := by
          split
          · exact linesOf_eq_nil (fun line => stream_of_mem_completedLines) hpp
          · rfl
        rw [if_pos hp, if_pos hp, readingOn, if_neg hpp, hnone, List.append_nil]
    · have hnone : linesOf p (if port ∈ ports then completedLines (read port) port bytes else []) = [] := by
        split
        · rename_i hport
          exact linesOf_eq_nil (fun line => stream_of_mem_completedLines) fun hpp => hp (hpp ▸ hport)
        · rfl
      rw [if_neg hp, if_neg hp, hnone, List.append_nil]

theorem Progress.after_append (port : String) : Progress settings ports read (s.step (.append port)) := by
  obtain ⟨consumed, hcollector, hhistory⟩ := h.history
  refine ⟨h.readers, h.running, consumed, hcollector, fun p => ?_⟩
  rw [← hhistory p]
  -- the reader takes its own lines to the front of all that are kept, which changes no stream
  have hkept : linesOf p (linesOf port s.kept ++ s.kept.filter (·.stream ≠ port)) = linesOf p s.kept := by
    rw [linesOf_append]
    unfold linesOf
    rw [List.filter_filter, List.filter_filter]
    by_cases hp : p = port
    · have hnone : (s.kept.filter fun line => decide (line.stream = p) && decide (line.stream ≠ port)) = [] :=
        List.filter_eq_nil_iff.2 fun line _ => by simp [hp]
      rw [hnone, List.append_nil, hp]
      simp only [Bool.and_self]
    · have hnone : (s.kept.filter fun line => decide (line.stream = p) && decide (line.stream = port)) = [] :=
        List.filter_eq_nil_iff.2 fun line _ => by simpa using fun hline => hline ▸ hp
      rw [hnone, List.nil_append]
      refine List.filter_congr fun line _ => ?_
      by_cases hline : line.stream = p <;> simp [hline, hp]
  simp only [LiveCollection.step, LiveCollection.underWay, ← List.append_assoc]
  rw [List.append_assoc _ (linesOf port s.kept), linesOf_append, hkept, ← linesOf_append]

theorem Progress.after_take : Progress settings ports read (s.step .take) := by
  obtain ⟨⟨readers, queue, running⟩, kept, taken, collector⟩ := s
  cases queue with
  | nil => exact h
  | cons line queue =>
      obtain ⟨hreaders, hrunning, consumed, hcollector, hhistory⟩ := h
      refine ⟨hreaders, hrunning, consumed, hcollector, fun p => ?_⟩
      rw [← hhistory p]
      simp only [LiveCollection.step, LiveCollection.underWay, List.append_assoc, List.cons_append,
        List.nil_append]

theorem Progress.after_consume : Progress settings ports read (s.step .consume) := by
  obtain ⟨consumed, hcollector, hhistory⟩ := h.history
  refine ⟨h.readers, h.running, consumed ++ s.taken, ?_, fun p => ?_⟩
  · rw [Collector.consumeAll_append, ← hcollector]
    rfl
  · rw [← hhistory p]
    simp only [LiveCollection.step, LiveCollection.underWay, List.append_assoc, List.nil_append]

end Step

theorem Progress.after {settings : CollectorSettings Float} {ports : List String} (hports : ports.Nodup)
    {read : String → List UInt8} {s : LiveCollection} (h : Progress settings ports read s)
    (moves : List CollectionMove) :
    Progress settings ports (fun port => read port ++ bytesRead port moves) (s.after moves) := by
  induction moves generalizing read s with
  | nil =>
      simp only [bytesRead, List.flatMap_nil, List.append_nil]
      exact h
  | cons move moves ih =>
      have hstep : Progress settings ports (fun port => read port ++ bytesRead port [move]) (s.step move) := by
        cases move with
        | read port bytes =>
            have hread : readingOn read port bytes = fun p => read p ++ bytesRead p [.read port bytes] := by
              funext p
              by_cases hp : p = port
              · simp [readingOn, bytesRead, hp]
              · simp [readingOn, bytesRead, hp, Ne.symm hp]
            rw [← hread]
            exact h.after_read hports port bytes
        | append port => simpa [bytesRead] using h.after_append port
        | take => simpa [bytesRead] using h.after_take
        | consume => simpa [bytesRead] using h.after_consume
      have hrest := ih hstep
      have hbytes : (fun port => read port ++ bytesRead port (move :: moves)) =
          fun port => read port ++ bytesRead port [move] ++ bytesRead port moves := by
        funext port
        simp only [bytesRead, List.flatMap_cons, List.flatMap_nil, List.append_nil, List.append_assoc]
      rw [hbytes]
      exact hrest

/-- The lines of the ports one port after another. -/
theorem linesOf_flatMap_portLines {ports : List String} (hports : ports.Nodup) (bytes : String → List UInt8)
    (p : String) : linesOf p (ports.flatMap fun port => portLines port (bytes port)) =
      if p ∈ ports then portLines p (bytes p) else [] := by
  rw [← flatMap_if_eq hports p fun port => portLines port (bytes port), linesOf, List.filter_flatMap]
  refine List.flatMap_congr fun port _ => ?_
  by_cases h : port = p
  · rw [if_pos h]
    exact linesOf_eq_self fun line hline => (stream_of_mem_portLines hline).trans h
  · rw [if_neg h]
    exact linesOf_eq_nil (fun line => stream_of_mem_portLines) (Ne.symm h)

/-- Under every schedule of reads, hand-overs and polls, and however the bytes of each port are cut, the collector
ends up the one that consumes the lines of one port after another, if no two ports announce the same address. -/
theorem collector_independent_of_schedule (settings : CollectorSettings Float) {ports : List String}
    (hports : ports.Nodup) (bytes : String → List UInt8)
    (hown : ∀ p ∈ ports, ∀ q ∈ ports, ∀ node,
      node ∈ announced TelemetryLine.shortAddress? p (portLines p (bytes p)) →
      node ∈ announced TelemetryLine.shortAddress? q (portLines q (bytes q)) → p = q)
    (moves : List CollectionMove) (hread : ∀ port ∈ ports, bytesRead port moves = bytes port)
    (hdrained : ((LiveCollection.start settings ports).after moves).Drained) :
    ((LiveCollection.start settings ports).after moves).collector =
      (Collector.new settings).consumeAll (ports.flatMap fun port => portLines port (bytes port)) := by
  obtain ⟨consumed, hcollector, hhistory⟩ := ((Progress.start settings ports).after hports moves).history
  obtain ⟨hkept, hqueue, htaken⟩ := hdrained
  have hsame : SameStreams (ports.flatMap fun port => portLines port (bytes port)) consumed := by
    intro p
    have hp := hhistory p
    simp only [LiveCollection.underWay, hkept, hqueue, htaken, List.append_nil, List.nil_append] at hp
    rw [linesOf_flatMap_portLines hports, hp]
    split
    · rename_i hmem
      rw [hread p hmem]
    · rfl
  have howner : OwnAddresses (ports.flatMap fun port => portLines port (bytes port)) := by
    intro s t node hs ht
    rw [← announced_linesOf, linesOf_flatMap_portLines hports] at hs ht
    split at hs
    · split at ht
      · exact hown s ‹_› t ‹_› node hs ht
      · cases ht
    · cases hs
  rw [hcollector, Collector.consumeAll_eq_of_sameStreams settings hsame howner]

/-- What two nodes print. One of them measures before it has said its address. -/
def twoConsoles (port : String) : List UInt8 :=
  (if port = "left" then "TW, 2, 0, 9\nTA, 0, 1\r\nTW, 2, 0, 10\n" else "TA, 0, 2\nTW, 1, 0, 11\n").toUTF8.toList

/-- A schedule that cuts a line between its carriage return and its end, and lets the other node pass meanwhile. -/
def twoConsolesMoves : List CollectionMove :=
  [.read "left" ((twoConsoles "left").take 21), .read "right" (twoConsoles "right"), .append "right", .take,
    .append "left", .consume, .read "left" ((twoConsoles "left").drop 21), .take, .take, .append "left", .take,
    .take, .consume]

theorem collector_independent_of_schedule_two_consoles :
    ["left", "right"].Nodup ∧
    (∀ p ∈ ["left", "right"], ∀ q ∈ ["left", "right"], ∀ node,
      node ∈ announced TelemetryLine.shortAddress? p (portLines p (twoConsoles p)) →
      node ∈ announced TelemetryLine.shortAddress? q (portLines q (twoConsoles q)) → p = q) ∧
    (∀ port ∈ ["left", "right"], bytesRead port twoConsolesMoves = twoConsoles port) ∧
    ((LiveCollection.start .default ["left", "right"]).after twoConsolesMoves).Drained ∧
    ((LiveCollection.start .default ["left", "right"]).after twoConsolesMoves).collector =
      (Collector.new .default).consumeAll
        (["left", "right"].flatMap fun port => portLines port (twoConsoles port)) := by
  have hports : ["left", "right"].Nodup := by decide
  have hleft : announced TelemetryLine.shortAddress? "left" (portLines "left" (twoConsoles "left")) = [1] := by
    decide +kernel
  have hright : announced TelemetryLine.shortAddress? "right" (portLines "right" (twoConsoles "right")) = [2] := by
    decide +kernel
  have hown : ∀ p ∈ ["left", "right"], ∀ q ∈ ["left", "right"], ∀ node,
      node ∈ announced TelemetryLine.shortAddress? p (portLines p (twoConsoles p)) →
      node ∈ announced TelemetryLine.shortAddress? q (portLines q (twoConsoles q)) → p = q := by
    simp [hleft, hright]
  have hread : ∀ port ∈ ["left", "right"], bytesRead port twoConsolesMoves = twoConsoles port := by
    decide +kernel
  have hdrained : ((LiveCollection.start .default ["left", "right"]).after twoConsolesMoves).Drained :=
    ⟨by decide +kernel, by decide +kernel, by decide +kernel⟩
  exact ⟨hports, hown, hread, hdrained,
    collector_independent_of_schedule .default hports twoConsoles hown twoConsolesMoves hread hdrained⟩

end UwbRanging
