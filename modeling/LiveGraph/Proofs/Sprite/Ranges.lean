import LiveGraph.Proofs.Sprite.Placing

/-!
# Ranges of coordinates

Coordinates are brought into range for the host of a sprite: an angle into one turn, an offset into
the length of the edge. What is in range is left as it is, so a sprite that is told to go where it
is stays there.

* `Binary64.IsAngle`, `Binary64.IsOffset`: the numbers of `[0, 2π)` and of `[0, 1]`.
* `Binary64.rest`, `Binary64.Wraps`: what an angle has beyond whole turns, and becomes within one.
* `Binary64.Clamps`: what an offset becomes, the number in range that is nearest to it.
* **`wraps_wrapAngle`**, **`clamps_clampOffset`**: numbers become that.
* `wrapAngle_of_isAngle`, `clampOffset_of_isOffset`: numbers that are in range stay.
* `Attachment.Ranges`, `Attachment.InRange`: what coordinates become on a host, and which stay.
* `Attachment.Holds`: the positions of sprites that have gone where they were told.
* **`Attachment.normalize_settles`**: coordinates come into range, and are stable there.
-/

namespace LiveGraph

open Operation

/-! ## Order of numbers -/

namespace Binary64

/-- Numeric order; NaN is neither at most nor at least anything. -/
instance : LE Binary64 := ⟨fun x y => x < y ∨ (x == y) = true⟩

instance (x y : Binary64) : Decidable (x ≤ y) := inferInstanceAs (Decidable (_ ∨ _))

section Finite

variable {s t : Bool} {m n : Nat} {hm : Fits m} {hn : Fits n}

theorem lt_finite : finite s m hm < finite t n hn ↔ units s m < units t n := decide_eq_true_iff

theorem beq_finite : (finite s m hm == finite t n hn) = true ↔ units s m = units t n :=
  beq_iff_eq (a := units s m)

theorem le_finite : finite s m hm ≤ finite t n hn ↔ units s m ≤ units t n := by
  change _ ∨ _ ↔ _
  rw [lt_finite, beq_finite, Int.le_iff_lt_or_eq]

end Finite

variable {x y z : Binary64}

theorem not_lt_iff (hx : x.isFinite = true) (hy : y.isFinite = true) : ¬ x < y ↔ y ≤ x := by
  obtain ⟨s, m, hm, rfl⟩ := exists_of_isFinite hx
  obtain ⟨t, n, hn, rfl⟩ := exists_of_isFinite hy
  rw [lt_finite, le_finite, Int.not_lt]

theorem not_le_iff (hx : x.isFinite = true) (hy : y.isFinite = true) : ¬ x ≤ y ↔ y < x := by
  rw [← not_lt_iff hy hx, not_not]

theorem le_of_le_of_le (hx : x.isFinite = true) (hy : y.isFinite = true) (hz : z.isFinite = true)
    (hxy : x ≤ y) (hyz : y ≤ z) : x ≤ z := by
  obtain ⟨s, m, hm, rfl⟩ := exists_of_isFinite hx
  obtain ⟨t, n, hn, rfl⟩ := exists_of_isFinite hy
  obtain ⟨u, k, hk, rfl⟩ := exists_of_isFinite hz
  rw [le_finite] at *
  exact Int.le_trans hxy hyz

theorem isFinite_of_le_of_le (hx : x.isFinite = true) (hz : z.isFinite = true) (hxy : x ≤ y)
    (hyz : y ≤ z) : y.isFinite = true := by
  obtain ⟨s, m, hm, rfl⟩ := exists_of_isFinite hx
  obtain ⟨t, n, hn, rfl⟩ := exists_of_isFinite hz
  cases y with
  | finite => rfl
  | nan => rcases hxy with h | h <;> exact absurd h Bool.false_ne_true
  | infinity u =>
    cases u with
    | false => rcases hyz with h | h <;> exact absurd h Bool.false_ne_true
    | true => rcases hxy with h | h <;> exact absurd h Bool.false_ne_true

theorem exists_of_beq {s : Bool} {m : Nat} {hm : Fits m} (h : (finite s m hm == y) = true) :
    ∃ t n hn, y = finite t n hn ∧ units s m = units t n := by
  cases y with
  | finite t n hn => exact ⟨t, n, hn, rfl, beq_finite.mp h⟩
  | _ => exact absurd h Bool.false_ne_true

theorem isFinite_of_beq (hx : x.isFinite = true) (h : (x == y) = true) : y.isFinite = true := by
  obtain ⟨s, m, hm, rfl⟩ := exists_of_isFinite hx
  obtain ⟨t, n, hn, rfl, -⟩ := exists_of_beq h
  rfl

theorem le_congr {x' y' : Binary64} (hx : x.isFinite = true) (hy : y.isFinite = true)
    (hxx' : (x == x') = true) (hyy' : (y == y') = true) : x ≤ y ↔ x' ≤ y' := by
  obtain ⟨s, m, hm, rfl⟩ := exists_of_isFinite hx
  obtain ⟨t, n, hn, rfl⟩ := exists_of_isFinite hy
  obtain ⟨_, _, _, rfl, hunits⟩ := exists_of_beq hxx'
  obtain ⟨_, _, _, rfl, hunits'⟩ := exists_of_beq hyy'
  rw [le_finite, le_finite, hunits, hunits']

/-! ## Angles and offsets -/

/-- An angle within one turn, `[0, 2π)`. -/
structure IsAngle (x : Binary64) : Prop where
  nonneg : zero false ≤ x
  lt_turn : x < turn

/-- An offset within the length of an edge, `[0, 1]`. -/
structure IsOffset (x : Binary64) : Prop where
  nonneg : zero false ≤ x
  le_one : x ≤ one

theorem IsAngle.isFinite (h : x.IsAngle) : x.isFinite = true :=
  isFinite_of_le_of_le rfl rfl h.nonneg (.inl h.lt_turn)

theorem IsOffset.isFinite (h : x.IsOffset) : x.isFinite = true :=
  isFinite_of_le_of_le rfl rfl h.nonneg h.le_one

theorem turn_le_congr (hx : x.isFinite = true) (h : (x == y) = true) : turn ≤ x ↔ turn ≤ y :=
  le_congr rfl hx (beq_self_of_ne_nan nofun) h

theorem IsAngle.of_beq (h : x.IsAngle) (he : (x == y) = true) : y.IsAngle := by
  have hy : y.isFinite = true := isFinite_of_beq h.isFinite he
  refine ⟨(le_congr rfl h.isFinite rfl he).mp h.nonneg, (not_le_iff rfl hy).mp fun hle => ?_⟩
  exact (not_le_iff rfl h.isFinite).mpr h.lt_turn ((turn_le_congr h.isFinite he).mpr hle)

theorem IsOffset.of_beq (h : x.IsOffset) (he : (x == y) = true) : y.IsOffset := by
  have hone : (one == one) = true := beq_self_of_ne_nan nofun
  exact ⟨(le_congr rfl h.isFinite rfl he).mp h.nonneg,
    (le_congr h.isFinite rfl he hone).mp h.le_one⟩

theorem isAngle_zero : (zero false).IsAngle := ⟨by decide, by decide +kernel⟩

theorem isOffset_zero : (zero false).IsOffset := ⟨by decide, by decide +kernel⟩

theorem isOffset_one : one.IsOffset := ⟨by decide +kernel, .inr (beq_self_of_ne_nan nofun)⟩

/-! ## Remainders -/

theorem roundMagnitude_of_fits {n : Nat} (h : Fits n) : roundMagnitude n 1 = n := by
  obtain ⟨-, hdvd⟩ := h
  rw [roundMagnitude, Nat.div_one, Nat.one_mul, roundHalfEven, Nat.mod_eq_zero_of_dvd hdvd,
    if_pos (.inl (Nat.pow_pos (by decide))), Nat.div_mul_cancel hdvd]

/-- A number that is there is not rounded. -/
theorem nearest_of_fits {s : Bool} {n : Nat} (h : Fits n) : nearest s n 1 = finite s n h := by
  have hround : roundMagnitude n 1 = n := roundMagnitude_of_fits h
  rw [nearest, dif_pos (hround.symm ▸ h.1)]
  simp only [hround]

theorem nearest_ne_nan (s : Bool) (a b : Nat) : nearest s a b ≠ nan := by
  intro h
  rw [nearest] at h
  split_ifs at h

theorem zero_le_nearest (a b : Nat) : zero false ≤ nearest false a b := by
  rw [nearest]
  split_ifs
  · exact le_finite.mpr (Int.natCast_nonneg _)
  · exact .inl rfl

theorem add_of_pos {s t : Bool} {m n : Nat} {hm : Fits m} {hn : Fits n}
    (hsum : 0 < units s m + units t n) :
    finite s m hm + finite t n hn = nearest false (units s m + units t n).toNat 1 := by
  have hnat : (units s m + units t n).natAbs = (units s m + units t n).toNat := by omega
  change Binary64.add _ _ = _
  rw [Binary64.add]
  simp only [if_neg (Int.ne_of_gt hsum), decide_eq_false (Int.lt_asymm hsum), hnat]

theorem units_zero (s : Bool) : units s 0 = 0 := by cases s <;> rfl

/-- The remainder of division downwards is the one of truncating division, with the divisor added
if it is negative. -/
theorem units_emod (s : Bool) {m n : Nat} (hne : n ≠ 0) : units s m % (n : Int) =
    if units s (m % n) < 0 then units s (m % n) + n else units s (m % n) := by
  have hpos : (0 : Int) < n := by omega
  have hlt : m % n < n := Nat.mod_lt m (Nat.pos_of_ne_zero hne)
  have habs := natAbs_units s (m % n)
  have hsplit : units s (m % n) + n * units s (m / n) = units s m := by
    have hnat : ((m % n : Nat) : Int) + n * (m / n : Nat) = m := by
      exact_mod_cast Nat.mod_add_div m n
    cases s with
    | false => exact hnat
    | true =>
      change -((m % n : Nat) : Int) + n * -((m / n : Nat) : Int) = -(m : Int)
      rw [Int.mul_neg, ← Int.neg_add, hnat]
  split_ifs with hnegative
  · refine ((Int.ediv_emod_unique (q := units s (m / n) - 1) hpos).mpr ⟨?_, by omega, by omega⟩).2
    rw [← hsplit, Int.mul_sub]
    omega
  · exact ((Int.ediv_emod_unique (q := units s (m / n)) hpos).mpr ⟨hsplit, by omega, by omega⟩).2

/-- The units of a finite number. -/
def toUnits : Binary64 → Int
  | finite s m _ => units s m
  | _ => 0

/-- What an angle has beyond whole turns: the remainder, to the nearest number. -/
def rest (x : Binary64) : Binary64 := nearest false (x.toUnits % turn.toUnits).toNat 1

theorem isFinite_rest (x : Binary64) : x.rest.isFinite = true := by
  obtain ⟨n, hn, hturn, hne, hsmall⟩ := turn_eq
  have hlt : (x.toUnits % turn.toUnits).toNat < Nat.pow 2 1078 := by
    have hemod := Int.emod_lt_of_pos x.toUnits (show (0 : Int) < n by omega)
    rw [hturn]
    change (x.toUnits % (n : Int)).toNat < _
    omega
  have hrange : roundMagnitude (x.toUnits % turn.toUnits).toNat 1 < overflow :=
    Nat.lt_of_le_of_lt (roundMagnitude_le hlt (by decide)) (by decide +kernel)
  rw [rest, nearest, dif_pos hrange]
  rfl

/-- An angle and what it becomes within one turn: its rest beyond whole turns, and zero where this
is rounded to a whole one. -/
structure Wraps (x y : Binary64) : Prop where
  isAngle : y.IsAngle
  rest : (y == if turn ≤ x.rest then zero false else x.rest) = true

/-- An offset and what it becomes within the length of an edge: no number there lies between. -/
structure Clamps (x y : Binary64) : Prop where
  isOffset : y.IsOffset
  le_of_le : ∀ o : Binary64, o.IsOffset → x ≤ o → y ≤ o
  ge_of_ge : ∀ o : Binary64, o.IsOffset → o ≤ x → o ≤ y

end Binary64

open Binary64

/-! ## Numbers that are brought into range -/

section Numbers

variable {x : Binary64}

/-- The remainder of an angle, with a turn added if it is negative. -/
def unwound (x : Binary64) : Binary64 := if x % turn < zero false then x % turn + turn else x % turn

theorem wrapAngle_eq (x : Binary64) :
    wrapAngle x = if turn ≤ unwound x then zero false else unwound x := by
  have hle : turn ≤ unwound x ↔ turn < unwound x ∨ (unwound x == turn) = true := by
    rw [BEq.comm]; rfl
  simp only [hle]
  rfl

/-- Only the sum is rounded, since the remainder of two numbers is one. -/
theorem unwound_beq_rest (h : x.isFinite = true) : (unwound x == x.rest) = true := by
  obtain ⟨s, m, hm, rfl⟩ := exists_of_isFinite h
  obtain ⟨n, hn, hturn, hne, -⟩ := turn_eq
  have hrest : (finite s m hm).rest = nearest false (units s m % (n : Int)).toNat 1 := by
    rw [rest, hturn]
    rfl
  have hlt : m % n < n := Nat.mod_lt m (Nat.pos_of_ne_zero hne)
  have habs := natAbs_units s (m % n)
  have hunits : units false n = n := rfl
  rw [unwound, hturn, rem_finite hm hn hne, hrest, units_emod s hne]
  simp only [zero, lt_finite, units_zero]
  split_ifs with hnegative
  · rw [add_of_pos (by omega), hunits]
    exact beq_self_of_ne_nan (nearest_ne_nan _ _ _)
  · have hnat : (units s (m % n)).toNat = m % n := by omega
    rw [hnat, nearest_of_fits (hm.mod hn), beq_finite]
    change _ = ((m % n : Nat) : Int)
    omega

/-- **An angle becomes its rest beyond whole turns**, within one turn. -/
theorem wraps_wrapAngle (h : x.isFinite = true) : x.Wraps (wrapAngle x) := by
  have hrest : (x.rest == unwound x) = true := BEq.symm (unwound_beq_rest h)
  have hfin : (unwound x).isFinite = true := isFinite_of_beq x.isFinite_rest hrest
  have hnonneg : zero false ≤ unwound x :=
    (le_congr rfl x.isFinite_rest rfl hrest).mp (zero_le_nearest ..)
  have hturn : turn ≤ x.rest ↔ turn ≤ unwound x := turn_le_congr x.isFinite_rest hrest
  rw [wrapAngle_eq]
  split_ifs with hwhole
  · exact ⟨isAngle_zero, by rw [if_pos (hturn.mpr hwhole)]; rfl⟩
  · exact ⟨⟨hnonneg, (not_le_iff rfl hfin).mp hwhole⟩,
      by rw [if_neg fun hle => hwhole (hturn.mp hle)]; exact BEq.symm hrest⟩

-- the sum of the smallest negative angle and a turn is rounded to a turn
example : unwound (finite true 1 (by decide +kernel)) = turn ∧
    wrapAngle (finite true 1 (by decide +kernel)) = zero false := by decide +kernel

theorem rem_turn_of_isAngle (h : x.IsAngle) : x % turn = x := by
  obtain ⟨s, m, hm, rfl⟩ := exists_of_isFinite h.isFinite
  obtain ⟨n, hn, hturn, hne, -⟩ := turn_eq
  have hlt : m < n := by
    have hunits := h.lt_turn
    have hnonneg := le_finite.mp h.nonneg
    rw [hturn, lt_finite] at hunits
    rw [← natAbs_units s m]
    rw [units_zero] at hnonneg
    change _ < (n : Int) at hunits
    omega
  rw [hturn, rem_finite hm hn hne]
  simp only [Nat.mod_eq_of_lt hlt]

/-- An angle within one turn stays. -/
theorem wrapAngle_of_isAngle (h : x.IsAngle) : wrapAngle x = x := by
  have hunwound : unwound x = x := by
    rw [unwound, rem_turn_of_isAngle h, if_neg ((not_lt_iff h.isFinite rfl).mpr h.nonneg)]
  rw [wrapAngle_eq, hunwound, if_neg ((not_le_iff rfl h.isFinite).mpr h.lt_turn)]

/-- **An offset becomes the nearest one** within the length of an edge. -/
theorem clamps_clampOffset (h : x.isFinite = true) : x.Clamps (clampOffset x) := by
  rw [clampOffset]
  split_ifs with hnegative hbeyond
  · refine ⟨isOffset_zero, fun o ho _ => ho.nonneg, fun o ho hle => ?_⟩
    have hzero : zero false ≤ x := le_of_le_of_le rfl ho.isFinite h ho.nonneg hle
    exact absurd hnegative ((not_lt_iff h rfl).mpr hzero)
  · refine ⟨isOffset_one, fun o ho hle => ?_, fun o ho _ => ho.le_one⟩
    have hone : x ≤ one := le_of_le_of_le h ho.isFinite rfl hle ho.le_one
    exact absurd hbeyond ((not_lt_iff rfl h).mpr hone)
  · exact ⟨⟨(not_lt_iff h rfl).mp hnegative, (not_lt_iff rfl h).mp hbeyond⟩,
      fun _ _ hle => hle, fun _ _ hle => hle⟩

theorem clampOffset_of_isOffset (h : x.IsOffset) : clampOffset x = x := by
  rw [clampOffset, if_neg ((not_lt_iff h.isFinite rfl).mpr h.nonneg),
    if_neg ((not_lt_iff rfl h.isFinite).mpr h.le_one)]

end Numbers

/-! ## Coordinates on a host -/

namespace Attachment

/-- What coordinates become: on a node the second and third are angles, on an edge the first is an
offset, and all others stay as they are. -/
def Ranges : Attachment → Binary64 × Binary64 × Binary64 → Binary64 × Binary64 × Binary64 → Prop
  | detached, p, q => q = p
  | node _, (x, y, z), (x', y', z') => x' = x ∧ y.Wraps y' ∧ z.Wraps z'
  | edge _, (x, y, z), (x', y', z') => x.Clamps x' ∧ y' = y ∧ z' = z

/-- Coordinates that are in range for a host. -/
def InRange : Attachment → Binary64 × Binary64 × Binary64 → Prop
  | detached, _ => True
  | node _, (_, y, z) => y.IsAngle ∧ z.IsAngle
  | edge _, (x, _, _) => x.IsOffset

variable {host : Attachment} {p q : Binary64 × Binary64 × Binary64} {x y z : Binary64}

theorem Ranges.inRange (h : host.Ranges p q) : host.InRange q := by
  cases host with
  | detached => trivial
  | node => exact ⟨h.2.1.isAngle, h.2.2.isAngle⟩
  | edge => exact h.1.isOffset

theorem ranges_normalize (hfin : (x.isFinite && y.isFinite && z.isFinite) = true) :
    host.Ranges (x, y, z) (host.normalize (x, y, z)) := by
  simp only [Bool.and_eq_true] at hfin
  obtain ⟨⟨hx, hy⟩, hz⟩ := hfin
  cases host with
  | detached => rfl
  | node => exact ⟨rfl, wraps_wrapAngle hy, wraps_wrapAngle hz⟩
  | edge => exact ⟨clamps_clampOffset hx, rfl, rfl⟩

theorem normalize_of_inRange (h : host.InRange p) : host.normalize p = p := by
  obtain ⟨x, y, z⟩ := p
  cases host with
  | detached => rfl
  | node => rw [normalize, wrapAngle_of_isAngle h.1, wrapAngle_of_isAngle h.2]
  | edge => rw [normalize, clampOffset_of_isOffset h]

/-- A position that a sprite on a host can be told to take, and takes as it is. -/
structure Holds (host : Attachment) (p : Position) : Prop where
  isFinite : p.IsFinite
  inRange : host.InRange p.xyz

theorem Holds.of_beq {p q : Position} (h : host.Holds p) (he : (p == q) = true) : host.Holds q := by
  obtain ⟨-, hget⟩ := Position.beq_iff.mp he
  refine ⟨⟨isFinite_of_beq h.isFinite.x (hget 0 (by decide)),
    isFinite_of_beq h.isFinite.y (hget 1 (by decide)),
    isFinite_of_beq h.isFinite.z (hget 2 (by decide))⟩, ?_⟩
  have hrange := h.inRange
  cases host with
  | detached => trivial
  | node => exact ⟨hrange.1.of_beq (hget 1 (by decide)), hrange.2.of_beq (hget 2 (by decide))⟩
  | edge => exact IsOffset.of_beq hrange (hget 0 (by decide))

end Attachment

/-! ## Sprites that are told to stay -/

namespace Sprite

variable {g : Graph} {s : Sprite} {x y z : Binary64} {units : Units}

/-- The sprite is told to go where it is. -/
def stay (s : Sprite) : Op :=
  .onSprite s.id (.setPosition (s.position.get 0) (s.position.get 1) (s.position.get 2)
    s.position.units)

theorem holds_target (hfin : (x.isFinite && y.isFinite && z.isFinite) = true) :
    s.attachment.Holds (s.target x y z units) :=
  ⟨isFinite_target hfin, (Attachment.ranges_normalize hfin).inRange⟩

/-- The coordinates of a sprite lead it to where it is. -/
theorem target_of_holds (h : s.attachment.Holds s.position) :
    (s.position == s.target (s.position.get 0) (s.position.get 1) (s.position.get 2)
      s.position.units) = true := by
  have hstable : s.attachment.normalize s.position.xyz = s.position.xyz :=
    Attachment.normalize_of_inRange h.inRange
  rw [Position.xyz] at hstable
  rw [target, hstable]
  exact h.isFinite.beq_self

theorem play_stay (stored : g.sprite? s.id = some s) (h : s.attachment.Holds s.position)
    {ω : Type} (tell : Audience ω) (w : ω) :
    (s.stay.perform g).play tell w = (.ok (.flag false), g, w) := by
  refine play_setPosition_of_target stored ?_ (target_of_holds h) tell w
  rw [h.isFinite.x, h.isFinite.y, h.isFinite.z]
  rfl

/-- A sprite that goes has gone when those who listen have answered, whatever they say. -/
theorem left_of_away (stored : g.sprite? s.id = some s)
    (hfin : (x.isFinite && y.isFinite && z.isFinite) = true)
    (away : (s.position == s.target x y z units) = false) {ω : Type} (tell : Audience ω) (w : ω) :
    (((Op.onSprite s.id (.setPosition x y z units)).perform g).play tell w).2.1 =
      g.settle s (s.target x y z units) := by
  rw [play_setPosition_of_away stored hfin away]
  rcases tell.answer w (g.notice? s.id (s.target x y z units)) with ⟨r | ⟨⟩, w'⟩
  · rfl
  · rfl

/-- A sprite that was told to go to finite coordinates is at a position that its host holds: at the
one to which they lead, or at one that equals it. -/
theorem holds_of_setPosition (stored : g.sprite? s.id = some s)
    (hfin : (x.isFinite && y.isFinite && z.isFinite) = true) {ω : Type} (tell : Audience ω)
    (w : ω) :
    let g' := (((Op.onSprite s.id (.setPosition x y z units)).perform g).play tell w).2.1
    ∃ s', g'.sprites[s.id]? = some s' ∧ s'.id = s.id ∧ s'.attachment = s.attachment ∧
      s.attachment.Holds s'.position := by
  intro g'
  cases hat : s.position == s.target x y z units with
  | true =>
    have hleft : g' = g :=
      congrArg (·.2.1) (play_setPosition_of_target stored hfin hat tell w)
    rw [hleft]
    exact ⟨s, stored, rfl, rfl, (holds_target hfin).of_beq (BEq.symm hat)⟩
  | false =>
    have hleft : g' = g.settle s (s.target x y z units) := left_of_away stored hfin hat tell w
    rw [hleft]
    exact ⟨_, (Graph.placed_settle (isFinite_target hfin)).sprite, rfl, rfl, holds_target hfin⟩

end Sprite

/-! ## Coordinates that settle -/

/-- **Coordinates come into range, and are stable there.** On a node the second and third of finite
coordinates become angles within one turn, on an edge the first becomes an offset within its length,
and all others stay as they are. Brought into range again they do not change, and neither do any
others that are in range. So a sprite that was told to go to finite coordinates, whether it
went or was there, and whatever those who listen made of it, is where it can be told to stay: as
long as it has that position on the same host, this changes nothing, and nobody hears of it. -/
theorem Attachment.normalize_settles (host : Attachment) {x y z : Binary64}
    (hfin : (x.isFinite && y.isFinite && z.isFinite) = true) :
    let p := host.normalize (x, y, z)
    host.Ranges (x, y, z) p ∧ host.normalize p = p ∧
    (∀ q, host.InRange q → host.normalize q = q) ∧
    ∀ (g : Graph) (s : Sprite), g.sprites[s.id]? = some s → s.attachment = host →
      ∀ (units : Units) {ω : Type} (tell : Audience ω) (w : ω),
        let g' := (((Op.onSprite s.id (.setPosition x y z units)).perform g).play tell w).2.1
        ∃ s', g'.sprites[s.id]? = some s' ∧ s'.id = s.id ∧ s'.attachment = host ∧
          ∀ (g'' : Graph) (t : Sprite), g''.sprites[t.id]? = some t →
            t.position = s'.position → t.attachment = host →
            ∀ {ω' : Type} (tell' : Audience ω') (w' : ω'),
              (t.stay.perform g'').play tell' w' = (.ok (.flag false), g'', w') := by
  intro p
  have hranges : host.Ranges (x, y, z) p := ranges_normalize hfin
  refine ⟨hranges, normalize_of_inRange hranges.inRange, fun q => normalize_of_inRange, ?_⟩
  rintro g s stored rfl units ω tell w
  obtain ⟨s', hs', hid, hhost, hholds⟩ := Sprite.holds_of_setPosition stored hfin tell w
  refine ⟨s', hs', hid, hhost, fun g'' t ht hposition hattachment _ tell' w' => ?_⟩
  have hstays : t.attachment.Holds t.position := by
    rw [hattachment, hposition]
    exact hholds
  exact Sprite.play_stay ht hstays tell' w'

/-- A sprite on a node is told to go to the smallest negative angle, and those who listen refuse it.
It is at angle zero for all that, and when it is told to stay, nobody is asked. -/
theorem Attachment.normalize_settles_refused :
    let tiny : Binary64 := .finite true 1 (by decide +kernel)
    let s : Sprite := ⟨"s", .origin, default, .node "a", ∅⟩
    let tell : Audience Unit := fun _ w => (.error (.observer "no"), w)
    ∃ (g' : Graph) (s' : Sprite),
      ((Op.onSprite "s" (.setPosition .one tiny .turn .pixels)).perform
        ((Graph.empty "g").keep s)).play tell () = (.error (.refused (.observer "no")), g', ()) ∧
      g'.sprites["s"]? = some s' ∧
      s'.position = .of .pixels .one (.zero false) (.zero false) ∧
      (s'.stay.perform g').play tell () = (.ok (.flag false), g', ()) := by
  intro tiny s tell
  have hfin : (one.isFinite && tiny.isFinite && turn.isFinite) = true := rfl
  have stored : ((Graph.empty "g").keep s).sprites[s.id]? = some s := Graph.sprite?_keep_self _ s
  have htarget : s.target .one tiny .turn .pixels = .of .pixels .one (.zero false) (.zero false) :=
    congrArg₂ (Position.of .pixels .one) (by decide +kernel) (by decide +kernel)
  have haway : (s.position == s.target .one tiny .turn .pixels) = false := by decide +kernel
  have hplay := play_setPosition_of_away stored hfin haway tell ()
  obtain ⟨-, -, -, hback⟩ := Attachment.normalize_settles (.node "a") hfin
  obtain ⟨s', hs', hid, hhost, hstay⟩ := hback _ s stored rfl .pixels tell ()
  rw [Sprite.left_of_away stored hfin haway] at hs'
  have hplace : s'.position = s.target .one tiny .turn .pixels := by
    rw [(Graph.placed_settle (Sprite.isFinite_target hfin)).sprite] at hs'
    exact congrArg Sprite.position (Option.some.inj hs').symm
  have there := (congrArg _ hid).trans hs'
  exact ⟨_, s', hplay, hs', hplace.trans htarget, hstay _ s' there rfl hhost tell ()⟩

end LiveGraph
