import LiveGraph.Proofs.Log.Selection

/-!
# Logs that are filtered again

* `Log.mem_forwarded`: what comes out of a log was read from it and is admitted.
* `Log.run_render`: of a log that was written all admitted events come out.
* **`Request.filter_idempotent`**: what was filtered comes out of the filter as it went in.
-/

namespace LiveGraph

variable {c : Config}

/-! ## Runs -/

namespace Log

/-- What comes out of a log was read from it and is admitted. -/
theorem mem_forwarded {e : Event} {n : Nat} {ls : List Line}
    (h : e ∈ (runFrom n ls (.start c.toFilter)).forwarded) :
    c.toFilter.Admits e ∧ ∃ text, Event.parse? text = some e := by
  rw [runFrom_start] at h
  obtain ⟨hread, hkept⟩ := List.mem_filter.mp h
  obtain ⟨l, -, hevent⟩ := List.mem_filterMap.mp hread
  exact ⟨(c.admits_iff e).mpr (of_decide_eq_true hkept), Line.exists_parse?_of_event? hevent⟩

/-- Of texts that are read back as events the admitted ones come out. -/
theorem runFrom_render {es : List Event} (h : ∀ e ∈ es, Event.parse? e.render = some e) (n : Nat) :
    runFrom n (es.map fun e => .text e.render) (.start c.toFilter) =
      ⟨es.filter fun e => c.toFilter.Admits e, none⟩ := by
  have hread : ∀ l ∈ es.map fun e => Line.text e.render, l.isRead = true := by
    intro l hl
    obtain ⟨e, he, rfl⟩ := List.mem_map.mp hl
    rw [Line.isRead, h e he]
    rfl
  have hevents : (es.map fun e => Line.text e.render).filterMap Line.event? = es := by
    rw [List.filterMap_map]
    exact (List.filterMap_congr h).trans List.filterMap_some
  rw [runFrom_start, List.takeWhile_eq_self_iff.mpr hread, List.dropWhile_eq_nil_iff.mpr hread,
    hevents]
  simp only [c.admits_iff]
  rfl

/-- **Of a log that was written the admitted events come out.** -/
theorem run_render {es : List Event} (h : ∀ e ∈ es, Event.parse? e.render = some e) :
    run c.toFilter (octets (render es)) = ⟨es.filter fun e => c.toFilter.Admits e, none⟩ := by
  rw [run, lines_render, runFrom_render h]

/-- What came out of a filter comes out again. -/
theorem run_forwarded {bytes : List UInt8}
    (hback : ∀ e ∈ (run c.toFilter bytes).forwarded, e.NumbersReadBack) :
    run c.toFilter (octets (render (run c.toFilter bytes).forwarded)) =
      ⟨(run c.toFilter bytes).forwarded, none⟩ := by
  have hread : ∀ e ∈ (run c.toFilter bytes).forwarded, Event.parse? e.render = some e := by
    intro e he
    obtain ⟨-, text, hparse⟩ := mem_forwarded he
    exact Event.parse?_render_of_parse? hparse (hback e he)
  have hadmits : ∀ e ∈ (run c.toFilter bytes).forwarded, decide (c.toFilter.Admits e) = true :=
    fun e he => decide_eq_true (mem_forwarded he).1
  rw [run_render hread, List.filter_eq_self.mpr hadmits]

end Log

/-! ## Requests -/

/-- The answer to a log that came out of the same filter is that log. -/
theorem Filter.answer_again {source : Source} (events events' : Option String)
    (hback : ∀ bytes, source = .octets bytes →
      ∀ e ∈ (Log.run c.toFilter bytes).forwarded, e.NumbersReadBack) :
    c.toFilter.answer events' (.octets (octets (c.toFilter.answer events source).output)) =
      ⟨(c.toFilter.answer events source).output, none⟩ := by
  have hempty : c.toFilter.answer events' (.octets (octets "")) = ⟨"", none⟩ := rfl
  cases source with
  | unopened | unread => exact hempty
  | octets bytes =>
    rw [answer, answer, Log.run_forwarded (hback bytes rfl)]
    rfl

/-- **What was filtered comes out of the filter as it went in**: the output of a request, whatever
its log and its end, is also the output of the request that filters it by the same settings. -/
theorem Request.filter_idempotent {read read' : Option String → Id Source} {path : String}
    {events events' : Option String} (hload : Config.load (read (some path)) = .ok c)
    (hsame : read' (some path) = read (some path))
    (hlog : read' events' =
      .octets (octets ((Request.filter path events).answer read : Answer).output))
    (hback : ∀ bytes, read events = .octets bytes →
      ∀ e ∈ (Log.run c.toFilter bytes).forwarded, e.NumbersReadBack) :
    let again : Answer := (Request.filter path events').answer read'
    again.code = 0 ∧ again.output = ((Request.filter path events).answer read : Answer).output := by
  rw [answer_filter events hload] at hlog ⊢
  rw [answer_filter events' (hsame ▸ hload), hlog, Filter.answer_again events events' hback]
  exact ⟨rfl, rfl⟩

namespace Rerun

theorem answer_log : let a := config.toFilter.answer none (.octets log)
    a.code = 1 ∧ a.output = Log.render [event] := by
  decide +kernel

theorem numbersReadBack : ∀ e ∈ (Log.run config.toFilter log).forwarded, e.NumbersReadBack := by
  have hnumbers : (Log.run config.toFilter log).forwarded.flatMap
      (fun e => e.values.flatMap Value.numbers) = [.sesqui] := by
    decide +kernel
  intro e he v hv x hx _
  have hmem : x ∈ [Binary64.sesqui] := by
    rw [← hnumbers]
    exact List.mem_flatMap.mpr ⟨e, he, List.mem_flatMap.mpr ⟨v, hv, hx⟩⟩
  rw [List.mem_singleton.mp hmem]
  exact Binary64.sesqui_readsBack

end Rerun

open Rerun in
/-- A log that is left at its last line gives one event. That event is filtered again to its end. -/
theorem Request.filter_idempotent_left :
    let first : Answer := (Request.filter "filter.yaml" none).answer (files log)
    let again : Answer := (Request.filter "filter.yaml" none).answer (files (octets first.output))
    (first.code = 1 ∧ first.output = Log.render [event]) ∧ again.code = 0 ∧
      again.output = first.output := by
  intro first again
  have hfirst : first = config.toFilter.answer none (.octets log) :=
    answer_filter none load_settings
  have hback : ∀ bytes, files log none = .octets bytes →
      ∀ e ∈ (Log.run config.toFilter bytes).forwarded, e.NumbersReadBack := by
    intro bytes hbytes
    obtain rfl : log = bytes := Source.octets.inj ((files_none log).symm.trans hbytes)
    exact numbersReadBack
  have hsame : files (octets first.output) (some "filter.yaml") = files log (some "filter.yaml") :=
    (files_some _ _).trans (files_some _ _).symm
  have hagain := filter_idempotent load_settings hsame (files_none (octets first.output)) hback
  exact ⟨hfirst ▸ answer_log, hagain⟩

end LiveGraph
