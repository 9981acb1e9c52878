import LiveGraph.CommandLine.Answer
import LiveGraph.Proofs.Log.Lines
import LiveGraph.Proofs.Stream.Chains
import Mathlib.Data.List.TakeWhile

/-!
# What comes out of a log

A log is read up to the first line that holds no event, and the settings select from what was read.

* `Config.Drops`: the events that settings drop, by their attribute or because they are removals.
* `Pipeline.feed_start`: a pipeline gives out what its filter admits, and is then as it was.
* `Line.isRead`, `Line.event?`, `Line.fault`: what a line is to a run.
* `Log.runFrom_start`: of the lines read before the first fault come the events not dropped.
* **`Request.filter_selects`**: the answer to a log in terms of its lines and the settings only.
-/

namespace LiveGraph

variable (c : Config) (e : Event)

/-! ## Events that are dropped -/

/-- Settings mean the attribute, by its name or by how its name starts, or they mean removals and
the event is one. -/
def Matcher.Drops (m : Matcher) (e : Event) : Prop :=
  e.key ∈ m.names ∨ (∃ start ∈ m.prefixes, start.toList <+: e.key.toList) ∨
    m.removals = true ∧ e.change.kind = .removed

instance (m : Matcher) : Decidable (m.Drops e) := inferInstanceAs (Decidable (_ ∨ _ ∨ _ ∧ _))

namespace Config

/-- The settings for the events of a kind of element. -/
def forKind : ElementKind → Option Matcher
  | .graph => c.graph
  | .node => c.node
  | .edge => c.edge

/-- The settings for the event's kind of element drop it, or the global ones do. -/
def Drops : Prop :=
  (∃ m, c.forKind e.element.kind = some m ∧ m.Drops e) ∨ ∃ m, c.global = some m ∧ m.Drops e

instance : Decidable (c.Drops e) :=
  have (o : Option Matcher) : Decidable (∃ m, o = some m ∧ m.Drops e) :=
    match o with
    | none => isFalse nofun
    | some m => decidable_of_iff (m.Drops e) ⟨fun h => ⟨m, rfl, h⟩, fun ⟨_, rfl, h⟩ => h⟩
  inferInstanceAs (Decidable (_ ∨ _))

end Config

theorem Matcher.covers_iff (m : Matcher) : m.covers e.key e.value? = true ↔ m.Drops e := by
  have hremoved : e.value?.isNone = true ↔ e.change.kind = .removed := by
    rw [Event.value?]
    cases e.change <;> simp [Change.value?, Change.kind]
  simp only [covers, Drops, Bool.or_eq_true, Bool.and_eq_true, hremoved, List.contains_iff_mem,
    List.any_eq_true, String.isPrefixOf, String.startsWith_string_iff]
  rw [or_assoc, or_comm, or_assoc]

/-- What the predicate of a slot says of an event. -/
theorem Config.answer_toFilter (slot : Slot) :
    e.answer (c.toFilter.slots slot) = .ok false ↔ ¬ ∃ m, c.get slot = some m ∧ m.Drops e := by
  rw [toFilter]
  dsimp only
  cases c.get slot with
  | none => exact ⟨fun _ => nofun, fun _ => rfl⟩
  | some m =>
    simp only [Option.map_some, Event.answer, Matcher.toPredicate, Except.ok.injEq,
      Option.some.injEq, exists_eq_left', ← m.covers_iff e, Bool.not_eq_true]

/-- The filter of the settings admits what they do not drop. -/
theorem Config.admits_iff : c.toFilter.Admits e ↔ ¬ c.Drops e := by
  have hown : c.get e.element.slot = c.forKind e.element.kind := by cases e.element <;> rfl
  have hglobal : c.get .global = c.global := rfl
  rw [Filter.Admits, c.answer_toFilter, c.answer_toFilter, hown, hglobal, Drops, not_or]

/-! ## Pipelines -/

/-- The tests of an event are those of predicates in slots. -/
theorem Filter.mem_judge {f : Filter} {e : Event} {q : Query} (h : q ∈ (f.judge e).1) :
    ∃ slot p, f.slots slot = some p ∧ q.label = p.label := by
  have hslot : ∀ slot, q ∈ e.queries slot (f.slots slot) →
      ∃ slot p, f.slots slot = some p ∧ q.label = p.label := by
    intro slot hq
    obtain ⟨p, hp, rfl⟩ := List.mem_map.mp hq
    exact ⟨slot, p, Option.mem_toList.mp hp, rfl⟩
  by_cases hown : e.answer (f.slots e.element.slot) = .ok false
  · rw [judge_of_left hown] at h
    exact (List.mem_append.mp h).elim (hslot _) (hslot _)
  · rw [judge_of_settled hown rfl] at h
    exact hslot _ h

/-- The tests of filters from settings have no labels, so they are not noted. -/
theorem Config.noting_judge (net : Network Roster) : net.noting (c.toFilter.judge e).1 = net := by
  have hlabel : ∀ q ∈ (c.toFilter.judge e).1, q.label = none := by
    intro q hq
    obtain ⟨slot, p, hp, hlabel⟩ := Filter.mem_judge hq
    obtain ⟨m, -, rfl⟩ := Option.map_eq_some_iff.mp hp
    exact hlabel
  have hnone : (c.toFilter.judge e).1.filterMap
      (fun q => q.label.map (Note.asked · q.key q.value)) = [] := by
    rw [List.filterMap_eq_nil_iff]
    intro q hq
    rw [hlabel q hq]
    rfl
  rw [Network.noting, Roster.noteQueries, hnone, List.append_nil]

namespace Pipeline

/-- What the filter hands on is recorded. -/
theorem dispatch_sinks : ((start c.toFilter).enter 0).dispatch Roster.react (.sinks 0) e =
    (.ok (), { (start c.toFilter).enter 0 with
      memory := (start c.toFilter).memory.setMember 1 (.recorder [e]) }) := by
  have hcall : ((start c.toFilter).enter 0).call Roster.react ⟨0, 1⟩ e =
      (.ok (), { (start c.toFilter).enter 0 with
        memory := (start c.toFilter).memory.setMember 1 (.recorder [e]) }) := by
    have hthere : ¬ ((start c.toFilter).enter 0).size ≤ 1 := (by decide : ¬ 2 ≤ 1)
    have hidle : 1 ∉ ((start c.toFilter).enter 0).busy := (by decide : 1 ∉ [0])
    rw [Network.call_eq, if_neg hthere, if_neg hidle, Roster.run_react_recorder rfl]
    rfl
  have hactive : (((start c.toFilter).enter 0).lists (.sinks 0)).active 0 = true := rfl
  rw [Network.dispatch_eq]
  change Network.round _ _ _ [⟨0, 1⟩] _ = _
  rw [Network.round, if_pos hactive, hcall]
  rfl

/-- **A pipeline gives out what its filter admits**, and is then as it was. -/
theorem feed_start : (start c.toFilter).feed e =
    (.ok (if c.toFilter.Admits e then [e] else []), start c.toFilter) := by
  have hrun : (Roster.react 0 e).run (Network.call Roster.react) ((start c.toFilter).enter 0) =
      if c.toFilter.Admits e then ((start c.toFilter).enter 0).dispatch Roster.react (.sinks 0) e
      else (.ok (), (start c.toFilter).enter 0) := by
    rw [Roster.run_react_filter c.toFilter_total rfl, c.noting_judge e]
  have hdeliver : (start c.toFilter).deliver Roster.react 0 e =
      let done := (Roster.react 0 e).run (Network.call Roster.react) ((start c.toFilter).enter 0)
      (done.1, done.2.leave 0) := by
    rw [Network.deliver, Network.call_eq]
    rfl
  rw [feed, hdeliver, hrun]
  split_ifs with ha
  · rw [dispatch_sinks]
    rfl
  · rfl

end Pipeline

/-! ## Runs -/

namespace Line

/-- The event on a line. -/
def event? : Line → Option Event
  | .text s => Event.parse? s
  | _ => none

/-- A line that a run goes on after: it is blank, or there is an event on it. -/
def isRead : Line → Bool
  | .garbled => false
  | .blank => true
  | .text s => (Event.parse? s).isSome

/-- Why a log is left at a line that is not read. -/
def fault : Line → LineFault
  | .garbled => .garbled
  | _ => .notAnEvent

theorem exists_parse?_of_event? {l : Line} {e : Event} (h : l.event? = some e) :
    ∃ s, Event.parse? s = some e := by
  cases l with
  | garbled | blank => exact absurd h.symm (Option.some_ne_none e)
  | text s => exact ⟨s, h⟩

end Line

theorem takeWhile_of_take {α : Type} (p : α → Bool) (k : Nat) (l : List α) :
    (l.take k).takeWhile p <+: l.takeWhile p := by
  have hsplit : l.takeWhile p = _ :=
    (congrArg _ (List.take_append_drop k l).symm).trans List.takeWhile_append
  rw [hsplit]
  split_ifs
  · have hstart : (l.take k).takeWhile p <+: l.take k := List.takeWhile_prefix p
    exact hstart.trans (List.prefix_append _ _)
  · exact List.prefix_rfl

namespace Log

variable {c}

/-- **Of the lines read before the first fault come the events not dropped**, and the log is left at
that fault. -/
theorem runFrom_start (n : Nat) (ls : List Line) : runFrom n ls (.start c.toFilter) =
    ⟨((ls.takeWhile Line.isRead).filterMap Line.event?).filter fun e => ¬ c.Drops e,
      (ls.dropWhile Line.isRead).head?.map fun l =>
        (n + (ls.takeWhile Line.isRead).length, l.fault)⟩ := by
  induction ls generalizing n with
  | nil => rfl
  | cons l ls ih =>
    have hnumber : n + 1 + (ls.takeWhile Line.isRead).length =
        n + (l :: ls.takeWhile Line.isRead).length := by
      rw [List.length_cons, Nat.add_assoc, Nat.add_comm 1]
    cases l with
    | garbled => rfl
    | blank =>
      rw [runFrom, ih, List.takeWhile_cons_of_pos rfl, List.dropWhile_cons_of_pos rfl, hnumber]
      rfl
    | text s =>
      cases hparse : Event.parse? s with
      | none =>
        have hunread : ¬ (Line.text s).isRead = true := by rw [Line.isRead, hparse]; nofun
        rw [runFrom, hparse, List.takeWhile_cons_of_neg hunread, List.dropWhile_cons_of_neg hunread]
        rfl
      | some e =>
        have hread : (Line.text s).isRead = true := by rw [Line.isRead, hparse]; rfl
        have hevent : (Line.text s).event? = some e := hparse
        rw [runFrom, hparse]
        dsimp only
        rw [Pipeline.feed_start]
        dsimp only
        rw [ih, List.takeWhile_cons_of_pos hread, List.dropWhile_cons_of_pos hread, hnumber,
          List.filterMap_cons_some hevent, List.filter_cons]
        simp only [c.admits_iff e, decide_eq_true_eq]
        split_ifs <;> rfl

/-- Of the first lines of a log come the first events. -/
theorem forwarded_take (n k : Nat) (ls : List Line) :
    (runFrom n (ls.take k) (.start c.toFilter)).forwarded <+:
      (runFrom n ls (.start c.toFilter)).forwarded := by
  rw [runFrom_start, runFrom_start]
  exact ((takeWhile_of_take Line.isRead k ls).filterMap Line.event?).filter _

/-- No more events come out than were read. -/
theorem length_forwarded_le (n : Nat) (ls : List Line) :
    (runFrom n ls (.start c.toFilter)).forwarded.length ≤
      ((ls.takeWhile Line.isRead).filterMap Line.event?).length := by
  rw [runFrom_start]
  exact List.length_filter_le _ _

/-- No event is refused. -/
theorem fault_ne_refused (n : Nat) (ls : List Line) (m : Nat) (refusal : Refusal) :
    (runFrom n ls (.start c.toFilter)).fault ≠ some (m, .refused refusal) := by
  rw [runFrom_start]
  cases (ls.dropWhile Line.isRead).head? with
  | none => nofun
  | some l => cases l <;> nofun

end Log

/-! ## Answers -/

namespace Answer

variable {a : Answer}

theorem code_eq_zero_iff : a.code = 0 ↔ a.complaint = none := by
  rw [code]
  cases a.complaint <;> simp

theorem code_eq_one_iff : a.code = 1 ↔ a.complaint ≠ none := by
  rw [code]
  cases a.complaint <;> simp

end Answer

variable {c}

theorem Request.answer_filter {read : Option String → Id Source} {path : String}
    (events : Option String) (hload : Config.load (read (some path)) = .ok c) :
    (Request.filter path events).answer read = c.toFilter.answer events (read events) := by
  rw [Request.answer]
  dsimp only [bind]
  rw [hload]
  rfl

/-- **The output of a request is what the settings select from its log**: of the lines up to the
first one that is neither blank nor an event, the events that are not dropped, in their order. Each
is written on a line of its own and, if its numbers are, read back from there. The request succeeds
if all lines are blank or events, and else it complains of the first other one by its number. After
any number of lines no more events came out than were read, and none was refused. -/
theorem Request.filter_selects {read : Option String → Id Source} {path : String}
    {events : Option String} {bytes : List UInt8}
    (hload : Config.load (read (some path)) = .ok c) (hlog : read events = .octets bytes) :
    let answer : Answer := (Request.filter path events).answer read
    let ls := (lines bytes).map Line.ofOctets
    let start := ls.takeWhile Line.isRead
    let selected := (start.filterMap Line.event?).filter fun e => ¬ c.Drops e
    answer.output = String.join (selected.map fun e => e.render ++ "\n") ∧
      (lines (octets answer.output)).map Line.ofOctets = selected.map (fun e => .text e.render) ∧
      (∀ e ∈ selected, e.NumbersReadBack → Event.parse? e.render = some e) ∧
      (answer.code = 0 ↔ start = ls) ∧ (start ≠ ls → answer.code = 1) ∧
      answer.complaint =
        (ls.dropWhile Line.isRead).head?.map (fun l => .line (start.length + 1) l.fault) ∧
      ∀ k, let part := Log.runFrom 1 (ls.take k) (.start c.toFilter)
        part.forwarded <+: selected ∧
          part.forwarded.length ≤
            (((ls.take k).takeWhile Line.isRead).filterMap Line.event?).length ∧
          ∀ n refusal, part.fault ≠ some (n, .refused refusal) := by
  intro answer ls start selected
  have hanswer : answer = ⟨String.join (selected.map fun e => e.render ++ "\n"),
      (ls.dropWhile Line.isRead).head?.map fun l => .line (start.length + 1) l.fault⟩ := by
    rw [show answer = _ from answer_filter events hload, hlog, Filter.answer, Log.run,
      Log.runFrom_start, Option.map_map, Nat.add_comm start.length]
    rfl
  have hlines : (lines (octets answer.output)).map Line.ofOctets =
      selected.map fun e => .text e.render := by
    rw [hanswer]
    exact Log.lines_render selected
  have hback : ∀ e ∈ selected, e.NumbersReadBack → Event.parse? e.render = some e := by
    intro e he hnumbers
    obtain ⟨l, -, hevent⟩ := List.mem_filterMap.mp (List.mem_of_mem_filter he)
    obtain ⟨s, hparse⟩ := Line.exists_parse?_of_event? hevent
    exact Event.parse?_render_of_parse? hparse hnumbers
  have hnone : answer.complaint = none ↔ start = ls := by
    rw [hanswer, Option.map_eq_none_iff, List.head?_eq_none_iff, List.dropWhile_eq_nil_iff]
    exact List.takeWhile_eq_self_iff.symm
  have hselected : (Log.runFrom 1 ls (.start c.toFilter)).forwarded = selected := by
    rw [Log.runFrom_start]
  refine ⟨by rw [hanswer], hlines, hback, Answer.code_eq_zero_iff.trans hnone,
    fun hne => Answer.code_eq_one_iff.mpr (mt hnone.mp hne), by rw [hanswer], fun k => ?_⟩
  exact ⟨hselected ▸ Log.forwarded_take 1 k ls, Log.length_forwarded_le 1 _,
    Log.fault_ne_refused 1 _⟩

namespace Rerun

/-- Settings that drop one attribute. -/
def config : Config := ⟨some ⟨["ui.class"], [], false⟩, none, none, none⟩

def settings : List UInt8 := octets "global:\n  names: [ui.class]\n"

/-- An event in an array with a position in an array, an event that is dropped, and garbage. -/
def log : List UInt8 :=
  octets ("[\"node_attribute_added\",\"g\",\"n\",\"at\",[\"px\",[1.5]]]\n" ++
    "[\"graph_attribute_removed\",\"g\",\"ui.class\"]\n\nend\n")

def event : Event := ⟨"g", .node "n", "at", .added (.position ⟨.pixels, [.sesqui], by decide⟩)⟩

/-- The settings under a path, and a log at the standard input. -/
def files (events : List UInt8) (path : Option String) : Id Source :=
  .octets (if path.isSome then settings else events)

theorem files_some (events : List UInt8) (path : String) :
    files events (some path) = .octets settings := rfl

theorem files_none (events : List UInt8) : files events none = .octets events := rfl

theorem load_settings : Config.load (.octets settings) = .ok config := by
  have hparse : Config.parse? "global:\n  names: [ui.class]\n" = some config := by decide +kernel
  rw [settings, Config.load, fromUTF8?_octets]
  dsimp only
  rw [hparse]

end Rerun

open Rerun in
/-- The log is left at its fourth line, after one event that is kept, one that is dropped and a line
that is blank. -/
theorem Request.filter_selects_left :
    let answer : Answer := (Request.filter "filter.yaml" none).answer (files log)
    answer.output =
        "\x7b\"event\":\"node_attribute_added\",\"graph_id\":\"g\",\"node_id\":\"n\"," ++
          "\"attribute\":\"at\",\"value\":\x7b\"units\":\"px\",\"values\":[1.5]\x7d\x7d\n" ∧
      answer.code = 1 ∧ answer.errorText = "Error: line 4" := by
  intro answer
  obtain ⟨houtput, -, -, -, hleft, hcomplaint, -⟩ :=
    filter_selects load_settings (files_none log)
  refine ⟨houtput.trans (by decide +kernel), hleft fun hall => ?_, ?_⟩
  · have hlengths : (((lines log).map Line.ofOctets).takeWhile Line.isRead).length ≠
        ((lines log).map Line.ofOctets).length := by
      decide +kernel
    exact hlengths (congrArg _ hall)
  · rw [Answer.errorText, show answer.complaint = _ from hcomplaint]
    decide +kernel

end LiveGraph
