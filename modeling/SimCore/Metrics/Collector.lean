import Mathlib.Data.List.Sort
import SimCore.Base.KeyMap
import SimCore.Base.Text

/-!
# Timelines of metrics

A series gathers the points recorded under one metric name and one set of labels, which is found by
a text made of the labels. It keeps a bounded timeline, of which it drops every other point when it
gets too long. The statistics of a series are not modelled.

If the limit is odd, the point that makes the timeline too long is itself dropped.

## Main definitions

* `MetricSeries`, `Collector`: a series, and all series
* `Collector.record`: a point is recorded, unless a limit is reached
* `Collector.getTimeSeries`, `Collector.getLastValue`: the timeline and its end
* `Collector.Recorded`: the states of a collector, with the points that it has accepted

## Main results

* `Collector.Recorded.timeline_latest`: when the latest value is at the end of the timeline
-/

namespace SimCore.Metrics

open List

abbrev Labels := List (String × String)

structure MetricPoint where
  timestamp : Time
  name : String
  value : ℚ
  labels : Labels
deriving DecidableEq

structure MetricSeries where
  labels : Labels
  points : List MetricPoint := []
  maxPoints : Nat

/-- Every other element, from the first on. -/
def everyOther {α : Type} : List α → List α
  | [] => []
  | [a] => [a]
  | a :: _ :: l => a :: everyOther l

/-- The series with one more point; if its timeline is too long, every other point is dropped. -/
def MetricSeries.addPoint (s : MetricSeries) (point : MetricPoint) : MetricSeries :=
  let points := s.points ++ [point]
  { s with points := if points.length > s.maxPoints then everyOther points else points }

/-- The text under which a series is found. -/
def labelKey (labels : Labels) : String :=
  .join ((labels.insertionSort (·.1 ≤ ·.1)).map fun e => e.1 ++ "=" ++ e.2 ++ ",")

def MetricPoint.key (p : MetricPoint) : String × String :=
  (p.name, labelKey p.labels)

/-- The series, by the name of the metric and the text of the labels, with their limits. -/
structure Collector where
  series : KeyMap (String × String) MetricSeries := .empty
  maxSeriesPoints : Nat := 256
  maxSeries : Nat := 10000
  totalPoints : Nat := 0
  totalSeries : Nat := 0
  maxPoints : Nat := 0

namespace Collector

/-- The collector after a point is recorded, unless a limit is reached. -/
def record (c : Collector) (p : MetricPoint) : Option Collector :=
  if c.maxPoints > 0 ∧ c.totalPoints ≥ c.maxPoints then none
  else
    let store (s : MetricSeries) (totalSeries : Nat) : Collector :=
      { c with series := c.series.set p.key (s.addPoint p)
               totalSeries := totalSeries
               totalPoints := c.totalPoints + 1 }
    match c.series.get p.key with
    | some s => some (store s c.totalSeries)
    | none =>
      if c.maxSeries > 0 ∧ c.totalSeries ≥ c.maxSeries then none
      else some (store { labels := p.labels, maxPoints := c.maxSeriesPoints } (c.totalSeries + 1))

def getTimeSeries (c : Collector) (name : String) (labels : Labels) : List MetricPoint :=
  ((c.series.get (name, labelKey labels)).map (·.points)).getD []

def getLastValue (c : Collector) (name : String) (labels : Labels) : Option ℚ :=
  (c.series.get (name, labelKey labels)).bind fun s => s.points.getLast?.map (·.value)

/-- The states of a collector, with the points that it has accepted. -/
inductive Recorded (c₀ : Collector) : List MetricPoint → Collector → Prop where
  | start : Recorded c₀ [] c₀
  | record {log : List MetricPoint} {c c' : Collector} {p : MetricPoint} :
      Recorded c₀ log c → c.record p = some c' → Recorded c₀ (log ++ [p]) c'

end Collector

/-! ### One series -/

variable {s : MetricSeries} {limit : Nat} {l : List MetricPoint} {p : MetricPoint}

theorem everyOther_sublist {α : Type} (l : List α) : (everyOther l).Sublist l := by
  fun_induction everyOther l with
  | case1 | case2 => exact .refl _
  | case3 _ _ _ ih => exact (ih.cons _).cons_cons _

theorem length_everyOther {α : Type} (l : List α) : (everyOther l).length = (l.length + 1) / 2 := by
  fun_induction everyOther l with
  | case1 | case2 => simp
  | case3 _ _ _ ih =>
    simp only [length_cons, ih]
    omega

/-- The last element stays exactly if their number is odd; otherwise the one before it does. -/
theorem getLast?_everyOther_concat {α : Type} (l : List α) (a : α) :
    (everyOther (l ++ [a])).getLast? = if l.length % 2 = 0 then some a else l.getLast? := by
  fun_induction everyOther l with
  | case1 | case2 => rfl
  | case3 b c l ih =>
    have hne : everyOther (l ++ [a]) ≠ [] := by
      rw [← length_pos_iff, length_everyOther, length_append, length_singleton]
      omega
    rw [cons_append, cons_append, everyOther, getLast?_cons_of_ne_nil hne, ih, length_cons,
      length_cons, show (l.length + 1 + 1) % 2 = l.length % 2 by omega]
    split_ifs with hl
    · rfl
    · cases l with
      | nil => cases hl rfl
      | cons => rw [getLast?_cons_cons, getLast?_cons_cons]

/-- The `n`-th point is dropped as soon as it comes. -/
def Drops (limit n : Nat) : Prop :=
  limit % 2 = 1 ∧ limit < n ∧ (limit + 1) / 2 ∣ n

/-- The end of the timeline when the latest point is dropped: the point before it, or the first one
if there is room for one point only. -/
def before (limit : Nat) (l : List MetricPoint) : Option MetricPoint :=
  if limit = 1 then l.head? else l.dropLast.getLast?

namespace MetricSeries

/-- What a series shows of its points. -/
structure Shows (s : MetricSeries) (limit : Nat) (l : List MetricPoint) : Prop where
  maxPoints : s.maxPoints = limit
  sublist : s.points.Sublist l
  length_le : s.points.length ≤ limit
  all : l.length ≤ limit → s.points.length = l.length
  turn : limit % 2 = 1 → limit < l.length → (limit + 1) / 2 ≤ s.points.length ∧
    ∃ q, l.length + (limit + 1) / 2 = q * ((limit + 1) / 2) + s.points.length
  last_of_drops : Drops limit l.length → s.points.getLast? = before limit l
  last : ¬ Drops limit l.length → s.points.getLast? = l.getLast?

/-- A point is dropped exactly if an odd limit is reached before it. -/
theorem Shows.drops_iff (h : s.Shows limit l) :
    Drops limit (l.length + 1) ↔ limit % 2 = 1 ∧ s.points.length = limit := by
  refine and_congr_right fun hodd => ?_
  have hle := h.length_le
  obtain ⟨half, hhalf, hlim⟩ : ∃ half, (limit + 1) / 2 = half ∧ limit + 1 = 2 * half :=
    ⟨_, rfl, by omega⟩
  rw [hhalf]
  rcases lt_trichotomy l.length limit with hlt | heq | hgt
  · have hall := h.all hlt.le
    omega
  · have hall := h.all heq.le
    exact iff_of_true ⟨by omega, by rw [heq, hlim]; exact Nat.dvd_mul_left ..⟩ (by omega)
  · obtain ⟨hge, q, hq⟩ := h.turn hodd hgt
    rw [hhalf] at hge hq
    have hdvd : half ∣ l.length + 1 ↔ half ∣ s.points.length + 1 := by
      rw [← Nat.dvd_add_self_right, show l.length + 1 + half = q * half + (s.points.length + 1) by
        omega, Nat.dvd_add_right (Nat.dvd_mul_left ..)]
    rw [hdvd]
    refine ⟨fun hd => ?_, fun heq => ⟨by omega, by rw [heq, hlim]; exact Nat.dvd_mul_left ..⟩⟩
    have := Nat.le_of_dvd (by omega) (Nat.dvd_sub hd.2 (dvd_refl half))
    omega

/-- If the next point is dropped, the timeline ends with what is before it. -/
theorem Shows.getLast?_eq (hl : 1 ≤ limit) (h : s.Shows limit l) (hd : Drops limit (l.length + 1)) :
    s.points.getLast? = before limit (l ++ [p]) := by
  have hlen := h.sublist.length_le
  rw [(h.drops_iff.1 hd).2] at hlen
  have hne : l ≠ [] := length_pos_iff.1 (by omega)
  unfold before
  split_ifs with hone
  · rw [head?_append_of_ne_nil _ hne]
    by_cases hd' : Drops limit l.length
    · rw [h.last_of_drops hd', before, if_pos hone]
    · have hle : l.length ≤ 1 := by
        by_contra hlt
        exact hd' ⟨hd.1, by omega, by simp [hone]⟩
      obtain ⟨x, rfl⟩ := length_eq_one_iff.1 (by omega : l.length = 1)
      exact h.last hd'
  · rw [dropLast_concat]
    refine h.last fun hd' => ?_
    have hhalf := Nat.dvd_one.1 ((Nat.dvd_add_right hd'.2.2).1 hd.2.2)
    have hodd := hd.1
    omega

theorem Shows.add (hl : 1 ≤ limit) (h : s.Shows limit l) :
    (s.addPoint p).Shows limit (l ++ [p]) := by
  have hn : (l ++ [p]).length = l.length + 1 := length_append
  have hlen : (s.points ++ [p]).length = s.points.length + 1 := length_append
  have hle := h.length_le
  have hge := h.sublist.length_le
  have hsub := h.sublist.append_right [p]
  unfold addPoint
  dsimp only
  split_ifs with hm
  all_goals rw [h.maxPoints, hlen] at hm
  · -- every other point is dropped
    obtain heq : s.points.length = limit := by omega
    have hhalf : (everyOther (s.points ++ [p])).length = (limit + 2) / 2 := by
      rw [length_everyOther, hlen, heq]
    refine ⟨h.maxPoints, (everyOther_sublist _).trans hsub, ?_, fun hall => ?_, fun hodd _ => ?_,
      fun hd => ?_, fun hd => ?_⟩ <;> dsimp only
    · omega
    · omega
    · obtain ⟨-, -, q, hq⟩ := h.drops_iff.2 ⟨hodd, heq⟩
      rw [hhalf, hn, hq, show (limit + 2) / 2 = (limit + 1) / 2 by omega]
      exact ⟨le_rfl, q, by rw [Nat.mul_comm]⟩
    · rw [hn] at hd
      rw [getLast?_everyOther_concat, if_neg (by have := hd.1; omega), h.getLast?_eq hl hd]
    · rw [hn, h.drops_iff] at hd
      rw [getLast?_everyOther_concat, if_pos (by omega), getLast?_concat]
  · have hd : ¬ Drops limit (l.length + 1) := fun hd => by
      have := (h.drops_iff.1 hd).2
      omega
    refine ⟨h.maxPoints, hsub, ?_, fun hall => ?_, fun hodd hlt => ?_, fun hd' => ?_,
      fun _ => ?_⟩ <;> dsimp only
    · omega
    · have := h.all (by omega)
      omega
    · rcases eq_or_ne l.length limit with heq | hne
      · have := h.all heq.le
        omega
      · obtain ⟨hge, q, hq⟩ := h.turn hodd (by omega)
        exact ⟨by omega, q, by omega⟩
    · exact absurd (hn ▸ hd') hd
    · rw [getLast?_concat, getLast?_concat]

end MetricSeries

/-! ### All series -/

namespace Collector

variable {c₀ c c' : Collector} {log : List MetricPoint} {p : MetricPoint}

theorem record_eq (h : c.record p = some c') :
    c'.maxSeriesPoints = c.maxSeriesPoints ∧ c'.series = c.series.set p.key
      (((c.series.get p.key).getD
        { labels := p.labels, maxPoints := c.maxSeriesPoints }).addPoint p) := by
  rw [record] at h
  split at h
  · cases h
  · cases hs : c.series.get p.key with
    | some =>
      simp only [hs] at h
      cases h
      exact ⟨rfl, rfl⟩
    | none =>
      simp only [hs] at h
      split at h <;> cases h
      exact ⟨rfl, rfl⟩

/-- A series shows the points recorded under its name and text. -/
theorem Recorded.shows (h₀ : c₀.series = .empty) (hl : 1 ≤ c₀.maxSeriesPoints)
    (h : c₀.Recorded log c) : c.maxSeriesPoints = c₀.maxSeriesPoints ∧
    ∀ k labels, ((c.series.get k).getD { labels, maxPoints := c₀.maxSeriesPoints }).Shows
      c₀.maxSeriesPoints (log.filter (·.key = k)) := by
  induction h with
  | start =>
    refine ⟨rfl, fun k labels => ?_⟩
    rw [h₀]
    exact ⟨rfl, .refl _, Nat.zero_le _, fun _ => rfl, fun _ hlt => absurd hlt (Nat.not_lt_zero _),
      fun hd => absurd hd.2.1 (Nat.not_lt_zero _), fun _ => rfl⟩
  | record _ hr ih =>
    obtain ⟨hm, hs⟩ := record_eq hr
    refine ⟨hm.trans ih.1, fun k labels => ?_⟩
    rw [hs, KeyMap.get_set, filter_append]
    split_ifs with hk
    · subst hk
      rw [filter_cons_of_pos (by simp), filter_nil, ih.1]
      exact (ih.2 _ _).add hl
    · rw [filter_cons_of_neg (by simpa using Ne.symm hk), filter_nil, append_nil]
      exact ih.2 k labels

/-- A timeline is a part of the recorded points, in their order and within the limit. The latest
value is at its end exactly if its point is not dropped, or what is before it has the same value. -/
theorem Recorded.timeline_latest (h₀ : c₀.series = .empty) (hl : 1 ≤ c₀.maxSeriesPoints)
    (h : c₀.Recorded log c) (name : String) (labels : Labels) :
    let recorded := log.filter (·.key = (name, labelKey labels))
    let shown := c.getTimeSeries name labels
    shown.Sublist recorded ∧ shown.length ≤ c₀.maxSeriesPoints ∧
    (c.getLastValue name labels = recorded.getLast?.map (·.value) ∧
        shown.getLast?.map (·.value) = recorded.getLast?.map (·.value) ↔
      ¬ Drops c₀.maxSeriesPoints recorded.length ∨
        (before c₀.maxSeriesPoints recorded).map (·.value) =
          recorded.getLast?.map (·.value)) := by
  intro recorded shown
  have hs : ∃ s : MetricSeries, s.Shows c₀.maxSeriesPoints recorded ∧ s.points = shown :=
    ⟨_, (h.shows h₀ hl).2 _ [], by
      simp only [shown, getTimeSeries]
      cases c.series.get (name, labelKey labels) <;> rfl⟩
  have hv : c.getLastValue name labels = shown.getLast?.map (·.value) := by
    simp only [shown, getTimeSeries, getLastValue]
    cases c.series.get (name, labelKey labels) <;> rfl
  obtain ⟨s, hs, hp⟩ := hs
  rw [hv, and_self, ← hp]
  refine ⟨hs.sublist, hs.length_le, ?_⟩
  by_cases hd : Drops c₀.maxSeriesPoints recorded.length
  · rw [hs.last_of_drops hd]
    simp [hd]
  · rw [hs.last hd]
    simp [hd]

/-- A gauge without labels. -/
def gauge (value : ℚ) : MetricPoint :=
  ⟨0, "depth", value, []⟩

theorem timeline_latest_five : ∃ c, ({ maxSeriesPoints := 3 } : Collector).Recorded
    [gauge 1, gauge 2, gauge 3, gauge 4, gauge 5] c ∧ c.getLastValue "depth" [] = some 5 := by
  have hr : ({ maxSeriesPoints := 3 } : Collector).Recorded
      [gauge 1, gauge 2, gauge 3, gauge 4, gauge 5] _ :=
    .record (.record (.record (.record (.record .start rfl) rfl) rfl) rfl) rfl
  obtain ⟨-, -, h⟩ := Recorded.timeline_latest rfl (by decide) hr "depth" []
  exact ⟨_, hr, (h.2 (.inl (by unfold Drops; decide +kernel))).1.trans (by decide +kernel)⟩

/-- With room for three points, the fourth is dropped. -/
theorem latest_dropped : ∃ c, ({ maxSeriesPoints := 3 } : Collector).Recorded
    [gauge 1, gauge 2, gauge 3, gauge 4] c ∧ c.getLastValue "depth" [] = some 3 :=
  ⟨_, .record (.record (.record (.record .start rfl) rfl) rfl) rfl, by decide +kernel⟩

end Collector

end SimCore.Metrics
