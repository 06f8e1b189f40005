/-
Polygons changed ring by ring. The rules look at rings through a few tests only: the fault of a ring, its area, whether
two rings cross or share a stretch, and where the positions of one lie to another. A change of rings that all these
tests follow is followed by the first problem, of one polygon and of several, and by the area. The tests of where a
position lies need to follow for rings without fault only, since they are not asked before the rings have passed.
-/
import OccurrenceQuery.Proofs.Geometry.Acceptance

namespace OccurrenceQuery.Geometry

/-! ## Lists -/

section Lists

variable {β γ : Type}

theorem findSome?_congr {f g : β → Option γ} : ∀ {bs : List β}, (∀ b ∈ bs, f b = g b) →
    bs.findSome? f = bs.findSome? g
  | [], _ => rfl
  | b :: bs, h => by
    obtain ⟨hb, hbs⟩ := List.forall_mem_cons.1 h
    rw [List.findSome?_cons, List.findSome?_cons, hb, findSome?_congr hbs]

theorem orderedPairs_map (f : β → γ) : ∀ bs : List β,
    orderedPairs (bs.map f) = (orderedPairs bs).map (Prod.map f f)
  | [] => rfl
  | b :: bs => by
    rw [List.map_cons, orderedPairs, orderedPairs, orderedPairs_map f bs, List.map_append, List.map_map, List.map_map]
    rfl

/-- The pairs of a changed list, numbered, are those of the list, changed. -/
theorem orderedPairs_zipIdx_map (f : β → γ) (bs : List β) : orderedPairs (bs.map f).zipIdx =
    (orderedPairs bs.zipIdx).map (Prod.map (Prod.map f id) (Prod.map f id)) := by
  rw [List.zipIdx_map, orderedPairs_map]

end Lists

/-! ## Changes -/

variable {α : Type}

/-- The fault with its position moved. -/
def RingFault.moved (move : Position α → Position α) : RingFault α → RingFault α
  | selfIntersection p => .selfIntersection (move p)
  | fault => fault

/-- The problem with its position moved; its rings and members keep their numbers. -/
def Problem.moved (move : Position α → Position α) : Problem α → Problem α
  | selfIntersection ring p => .selfIntersection ring (move p)
  | found => found

theorem RingFault.problem_moved (move : Position α → Position α) (i : Nat) (fault : RingFault α) :
    (fault.moved move).problem i = (fault.problem i).moved move := by
  cases fault <;> rfl

theorem Problem.moved_id : Problem.moved (id : Position α → Position α) = id := by
  funext found
  cases found <;> rfl

/-- The polygon with all its rings changed. -/
def Polygon.changed (change : Ring α → Ring α) (p : Polygon α) : Polygon α :=
  ⟨change p.shell, p.holes.map change⟩

theorem Polygon.rings_changed (change : Ring α → Ring α) (p : Polygon α) :
    (p.changed change).rings = p.rings.map change := rfl

variable [Scalar α]

/-- Whether the tests of rings follow a change of rings: faults, vertices and probes go where positions are moved to,
areas and how two rings meet stay as they are, and so does what lies on and inside a ring without fault. -/
structure IsFaithful (change : Ring α → Ring α) (move : Position α → Position α) : Prop where
  fault : ∀ r, ringFault? (change r) = (ringFault? r).map (RingFault.moved move)
  area : ∀ r, signedArea (change r) = signedArea r
  crossing : ∀ r s, ringsCross (change r) (change s) = ringsCross r s
  sharing : ∀ r s, ringsShareEdge (change r) (change s) = ringsShareEdge r s
  vertex : ∀ r (f : Position α → Bool), (change r).find? f = (r.find? (f ∘ move)).map move
  probe : ∀ r (f : Position α → Bool), (probes (change r)).any f = (probes r).any (f ∘ move)
  border : ∀ r p, ringFault? r = none → onRing (move p) (change r) = onRing p r
  inside : ∀ r p, ringFault? r = none → insideRing (move p) (change r) = insideRing p r

namespace IsFaithful

variable {change : Ring α → Ring α} {move : Position α → Position α}

/-! ## One polygon -/

section Polygon

variable (h : IsFaithful change move) (p : Polygon α)

include h

theorem ringProblem? : (p.changed change).ringProblem? = p.ringProblem?.map (Problem.moved move) := by
  rw [Polygon.ringProblem?, Polygon.ringProblem?, Polygon.rings_changed, List.zipIdx_map, List.findSome?_map,
    List.map_findSome?]
  congr 1
  funext entry
  obtain ⟨ring, i⟩ := entry
  simp only [Function.comp, Prod.map, id, h.fault, Option.map_map]
  congr 1
  funext fault
  exact RingFault.problem_moved move i fault

theorem orientationProblem? :
    (p.changed change).orientationProblem? = p.orientationProblem?.map (Problem.moved move) := by
  have hholes : (fun hole => decide (0 < signedArea hole)) ∘ change = fun hole => decide (0 < signedArea hole) := by
    funext hole
    rw [Function.comp, h.area]
  simp only [Polygon.orientationProblem?, Polygon.changed, h.area, List.findIdx?_map, hholes]
  split
  · rfl
  · rw [Option.map_map]
    rfl

theorem crossingProblem? : (p.changed change).crossingProblem? = p.crossingProblem?.map (Problem.moved move) := by
  rw [Polygon.crossingProblem?, Polygon.crossingProblem?, Polygon.rings_changed, orderedPairs_zipIdx_map,
    List.findSome?_map, List.map_findSome?]
  congr 1
  funext pair
  obtain ⟨⟨r, i⟩, s, j⟩ := pair
  simp only [Function.comp, Prod.map, id, h.crossing]
  split <;> rfl

theorem holdsHole {shell : Ring α} (hshell : ringFault? shell = none) (hole : Ring α) :
    Polygon.holdsHole (change shell) (change hole) = Polygon.holdsHole shell hole := by
  have hoff : (fun p => !onRing p (change shell)) ∘ move = fun p => !onRing p shell := by
    funext p
    rw [Function.comp, h.border shell p hshell]
  simp only [Polygon.holdsHole, h.vertex, hoff]
  cases hole.find? fun p => !onRing p shell with
  | none => rfl
  | some p => exact h.inside shell p hshell

theorem outsideProblem? (hshell : ringFault? p.shell = none) :
    (p.changed change).outsideProblem? = p.outsideProblem?.map (Problem.moved move) := by
  have hholes : (fun hole => !Polygon.holdsHole (change p.shell) hole) ∘ change =
      fun hole => !Polygon.holdsHole p.shell hole := by
    funext hole
    rw [Function.comp, h.holdsHole hshell]
  simp only [Polygon.outsideProblem?, Polygon.changed, List.findIdx?_map, hholes, Option.map_map]
  rfl

theorem reachesInto {outer : Ring α} (houter : ringFault? outer = none) (inner : Ring α) :
    Geometry.reachesInto (change inner) (change outer) = Geometry.reachesInto inner outer := by
  rw [Geometry.reachesInto, Geometry.reachesInto, h.probe]
  congr 1
  funext p
  exact h.inside outer p houter

theorem nestingProblem? (hholes : ∀ hole ∈ p.holes, ringFault? hole = none) :
    (p.changed change).nestingProblem? = p.nestingProblem?.map (Problem.moved move) := by
  simp only [Polygon.nestingProblem?, Polygon.changed, List.zipIdx_map, List.findSome?_map, List.map_findSome?]
  congr 1
  funext entry
  obtain ⟨inner, i⟩ := entry
  have hothers :
      p.holes.zipIdx.find? (fun entry => entry.2 != i && Geometry.reachesInto (change inner) (change entry.1)) =
        p.holes.zipIdx.find? fun entry => entry.2 != i && Geometry.reachesInto inner entry.1 := by
    apply List.find?_congr
    rintro ⟨outer, j⟩ hentry
    have houter := hholes outer (List.mem_of_getElem? (List.mem_zipIdx_iff_getElem?.1 hentry))
    simp only [h.reachesInto houter]
  simp only [Function.comp_def, Prod.map, id, List.find?_map, hothers, Option.map_map]
  rfl

/-- The first problem of a polygon follows the change. -/
theorem problem? : (p.changed change).problem? = p.problem?.map (Problem.moved move) := by
  rw [Polygon.problem?, Polygon.problem?, h.ringProblem?]
  cases hrings : p.ringProblem? with
  | some found => rfl
  | none =>
    -- the rings are without fault, as the tests of positions want them
    obtain ⟨hshell, hholes⟩ := List.forall_mem_cons.1 ((Polygon.ringProblem?_eq_none_iff p).1 hrings)
    rw [h.orientationProblem?, h.crossingProblem?, h.outsideProblem? p hshell, h.nestingProblem? p hholes]
    simp only [Option.map_none, Option.none_or, Option.map_or]

theorem polygonArea : (p.changed change).area = p.area := by
  have hring : ringArea ∘ change = ringArea := by
    funext ring
    rw [Function.comp, ringArea, h.area, ringArea]
  simp only [Polygon.area, Polygon.changed, List.map_map, hring]
  rw [ringArea, h.area, ringArea]

end Polygon

/-! ## Several polygons -/

section Polygons

variable (h : IsFaithful change move)

include h

theorem hasInside {p : Polygon α} (hp : ∀ ring ∈ p.rings, ringFault? ring = none) (z : Position α) :
    (p.changed change).hasInside (move z) = p.hasInside z := by
  obtain ⟨hshell, hholes⟩ := List.forall_mem_cons.1 hp
  simp only [Polygon.hasInside, Polygon.changed, h.inside p.shell z hshell, List.any_map]
  congr 2
  rw [Bool.eq_iff_iff, List.any_eq_true, List.any_eq_true]
  refine exists_congr fun hole => and_congr_right fun hhole => ?_
  rw [Function.comp, h.inside hole z (hholes hole hhole), h.border hole z (hholes hole hhole)]

theorem overlaps {p q : Polygon α} (hp : ∀ ring ∈ p.rings, ringFault? ring = none)
    (hq : ∀ ring ∈ q.rings, ringFault? ring = none) :
    (p.changed change).overlaps (q.changed change) = p.overlaps q := by
  have hinside : ∀ {p q : Polygon α}, (∀ ring ∈ p.rings, ringFault? ring = none) →
      (probes (q.changed change).shell).any (p.changed change).hasInside = (probes q.shell).any p.hasInside := by
    intro p q hp
    rw [Polygon.changed, h.probe]
    congr 1
    funext z
    exact h.hasInside hp z
  have hmeet : (p.changed change).boundariesMeet (q.changed change) = p.boundariesMeet q := by
    simp only [Polygon.boundariesMeet, Polygon.rings_changed, List.any_map, Function.comp_def, h.crossing, h.sharing]
  rw [Polygon.overlaps, Polygon.overlaps, hmeet, hinside hp, hinside hq]

/-- The first problem of several polygons follows the change. -/
theorem problemOfAll? (members : List (Polygon α)) : Polygon.problemOfAll? (members.map (Polygon.changed change)) =
    (Polygon.problemOfAll? members).map (Problem.moved move) := by
  have hmember : (fun p => Polygon.problem? p) ∘ Polygon.changed change =
      Option.map (Problem.moved move) ∘ Polygon.problem? := funext h.problem?
  rw [Polygon.problemOfAll?, Polygon.problemOfAll?, List.findSome?_map, hmember, ← List.map_findSome?]
  cases hproblem : members.findSome? Polygon.problem? with
  | some found => rfl
  | none =>
    have hrings : ∀ p ∈ members, ∀ ring ∈ p.rings, ringFault? ring = none := fun p hp =>
      (Polygon.ringProblem?_eq_none_iff p).1
        ((Polygon.problem?_eq_none_iff p).1 (List.findSome?_eq_none_iff.1 hproblem p hp)).1
    simp only [Option.map_none, Option.none_or]
    rw [orderedPairs_zipIdx_map, List.findSome?_map, List.map_findSome?]
    apply findSome?_congr
    rintro ⟨⟨p, i⟩, q, j⟩ hpair
    obtain ⟨-, hp, hq⟩ := mem_orderedPairs_zipIdx_iff.1 hpair
    simp only [Function.comp_apply, Prod.map, id,
      h.overlaps (hrings p (List.mem_of_getElem? hp)) (hrings q (List.mem_of_getElem? hq))]
    split <;> rfl

theorem areas (members : List (Polygon α)) :
    (members.map (Polygon.changed change)).map Polygon.area = members.map Polygon.area := by
  rw [List.map_map]
  exact List.map_congr_left fun p _ => h.polygonArea p

end Polygons

end IsFaithful

end OccurrenceQuery.Geometry
