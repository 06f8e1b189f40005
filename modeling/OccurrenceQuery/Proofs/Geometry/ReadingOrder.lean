/-
The positions of a geometry by their addresses. An address names, from the outside in, the place of a
member, of a polygon, of a ring or line and of a position in it, so that the lexicographic order of
addresses is the order of reading. The positions of a geometry are those at its addresses, in that
order; so the reading of a text with a check of latitudes is the reading without it up to the first
position off the globe.
-/
import OccurrenceQuery.Proofs.Geometry.Coordinates

namespace OccurrenceQuery.Geometry

variable {α β γ : Type}

/-! ## Addresses -/

/-- What the empty address names. -/
def leaf (b : β) : List Nat → Option β
  | [] => some b
  | _ :: _ => none

/-- What an address names in a list: its first place picks the item to go on in. -/
def under (f : γ → List Nat → Option β) (cs : List γ) : List Nat → Option β
  | [] => none
  | i :: address => cs[i]?.bind fun c => f c address

mutual

/-- The position at an address of a geometry. -/
def at? : Geometry α → List Nat → Option (Position α)
  | .point p => leaf p
  | .lineString ps => under leaf ps
  | .linearRing ps => under leaf ps
  | .polygon p => under (under leaf) p.rings
  | .multiPoint ps => under leaf ps
  | .multiLineString lines => under (under leaf) lines
  | .multiPolygon polygons => under (fun p => under (under leaf) p.rings) polygons
  | .collection members => fun
    | [] => none
    | i :: address => atMember? members i address

/-- The position at an address of a member of a list of geometries. -/
def atMember? : List (Geometry α) → Nat → List Nat → Option (Position α)
  | [], _, _ => none
  | member :: _, 0, address => member.at? address
  | _ :: members, i + 1, address => atMember? members i address

end

theorem atMember?_eq (i : Nat) (address : List Nat) : ∀ members : List (Geometry α),
    atMember? members i address = members[i]?.bind fun member => member.at? address := by
  induction i with
  | zero => rintro (_ | ⟨member, members⟩) <;> rfl
  | succ i ih =>
    rintro (_ | ⟨member, members⟩)
    · rfl
    · exact ih members

/-- A member of a collection is addressed like an item of a list. -/
theorem at?_collection (members : List (Geometry α)) :
    (Geometry.collection members).at? = under at? members := by
  funext address
  cases address with
  | nil => rfl
  | cons i address => exact atMember?_eq i address members

/-! ## Enumeration -/

/-- That a list holds what addresses name, in the order of the addresses and each of them once. -/
def Enumerates (f : List Nat → Option β) (bs : List β) : Prop :=
  ∃ entries : List (List Nat × β), entries.map Prod.snd = bs ∧
    entries.Pairwise (fun x y => x.1 < y.1) ∧ ∀ a b, (a, b) ∈ entries ↔ f a = some b

/-- The address of what is one place further in a list. -/
def later : List Nat → List Nat
  | [] => []
  | i :: address => (i + 1) :: address

theorem later_lt_later {a b : List Nat} (h : a < b) : later a < later b := by
  cases a with
  | nil =>
    cases b with
    | nil => exact h
    | cons j b => exact List.nil_lt_cons _ _
  | cons i a =>
    cases b with
    | nil => exact absurd h (List.not_lt_nil _)
    | cons j b =>
      rw [List.cons_lt_cons_iff] at h
      rw [later, later, List.cons_lt_cons_iff]
      simpa using h

theorem mem_map_zero {entries : List (List Nat × β)} {a : List Nat} {b : β} :
    (a, b) ∈ entries.map (Prod.map (0 :: ·) id) ↔ ∃ a', a = 0 :: a' ∧ (a', b) ∈ entries := by
  constructor
  · intro h
    obtain ⟨⟨a', b'⟩, hmem, heq⟩ := List.mem_map.1 h
    cases heq
    exact ⟨a', rfl, hmem⟩
  · rintro ⟨a', rfl, hmem⟩
    exact List.mem_map.2 ⟨(a', b), hmem, rfl⟩

/-- Unless an address is empty, what is one place further is at a later address. -/
theorem mem_map_later {entries : List (List Nat × β)} {a : List Nat} {b : β}
    (hne : ∀ b, ([], b) ∉ entries) :
    (a, b) ∈ entries.map (Prod.map later id) ↔
      ∃ i a', a = (i + 1) :: a' ∧ (i :: a', b) ∈ entries := by
  constructor
  · intro h
    obtain ⟨⟨_ | ⟨i, a'⟩, b'⟩, hmem, heq⟩ := List.mem_map.1 h
    · exact absurd hmem (hne b')
    · cases heq
      exact ⟨i, a', rfl, hmem⟩
  · rintro ⟨i, a', rfl, hmem⟩
    exact List.mem_map.2 ⟨(i :: a', b), hmem, rfl⟩

namespace Enumerates

theorem leaf (b : β) : Enumerates (leaf b) [b] := by
  refine ⟨[([], b)], rfl, List.pairwise_singleton _ _, fun a b' => ?_⟩
  cases a with
  | nil => simp [Geometry.leaf, eq_comm]
  | cons i a => simp [Geometry.leaf]

theorem under_nil (f : γ → List Nat → Option β) : Enumerates (under f []) [] := by
  refine ⟨[], rfl, .nil, fun a b => ?_⟩
  cases a <;> simp [under]

/-- The addresses of the first item start with 0 and stand before those of the others, which are each
one place further than without it. -/
theorem under_cons {f : γ → List Nat → Option β} {c : γ} {cs : List γ} {bs bs' : List β}
    (hc : Enumerates (f c) bs) (hcs : Enumerates (under f cs) bs') :
    Enumerates (under f (c :: cs)) (bs ++ bs') := by
  obtain ⟨first, rfl, hfirst, hmem⟩ := hc
  obtain ⟨others, rfl, hothers, hmem'⟩ := hcs
  have hne : ∀ b, ([], b) ∉ others := fun b h => nomatch (hmem' [] b).1 h
  refine ⟨first.map (Prod.map (0 :: ·) id) ++ others.map (Prod.map later id), ?_, ?_, ?_⟩
  · rw [List.map_append, List.map_map, List.map_map]
    rfl
  · refine List.pairwise_append.2 ⟨?_, ?_, ?_⟩
    · exact List.pairwise_map.2 (hfirst.imp fun h => List.cons_lt_cons_iff.2 (.inr ⟨rfl, h⟩))
    · exact List.pairwise_map.2 (hothers.imp later_lt_later)
    · rintro ⟨a, b⟩ hx ⟨a', b'⟩ hy
      obtain ⟨a, rfl, -⟩ := mem_map_zero.1 hx
      obtain ⟨i, a', rfl, -⟩ := (mem_map_later hne).1 hy
      exact List.cons_lt_cons_iff.2 (.inl i.succ_pos)
  · intro a b
    rw [List.mem_append, mem_map_zero, mem_map_later hne]
    match a with
    | [] => simp [Geometry.under]
    | 0 :: a => simp [Geometry.under, hmem]
    | (i + 1) :: a => simp [Geometry.under, hmem']

theorem under {f : γ → List Nat → Option β} {g : γ → List β} (h : ∀ c, Enumerates (f c) (g c)) :
    ∀ cs : List γ, Enumerates (under f cs) (cs.flatMap g)
  | [] => under_nil f
  | c :: cs => (h c).under_cons (under h cs)

theorem line (bs : List β) : Enumerates (Geometry.under Geometry.leaf bs) bs := by
  have h := under leaf bs
  rwa [List.flatMap_singleton'] at h

theorem lines (bss : List (List β)) :
    Enumerates (Geometry.under (Geometry.under Geometry.leaf) bss) bss.flatten := by
  have h := under line bss
  rwa [List.flatMap_id'] at h

/-- The first item with a property is at the least address of such an item. -/
theorem exists_find? {f : List Nat → Option β} {bs : List β} {test : β → Bool} {b : β}
    (h : Enumerates f bs) (hfind : bs.find? test = some b) :
    ∃ a, f a = some b ∧ ∀ a' b', f a' = some b' → a' < a → test b' = false := by
  obtain ⟨entries, rfl, hordered, hmem⟩ := h
  rw [List.find?_map, Option.map_eq_some_iff] at hfind
  obtain ⟨⟨a, b⟩, hfind, rfl⟩ := hfind
  obtain ⟨-, before, after, rfl, hbefore⟩ := List.find?_eq_some_iff_append.1 hfind
  refine ⟨a, (hmem a b).1 (by simp), fun a' b' hb' hlt => ?_⟩
  obtain ⟨-, hfollow, -⟩ := List.pairwise_append.1 hordered
  rcases List.mem_append.1 ((hmem a' b').2 hb') with hin | hin
  · simpa using hbefore _ hin
  rcases List.mem_cons.1 hin with heq | hin
  · cases heq
    exact absurd hlt (List.lt_irrefl a)
  · exact absurd ((List.pairwise_cons.1 hfollow).1 _ hin) (List.lt_asymm hlt)

theorem mem_iff {f : List Nat → Option β} {bs : List β} (h : Enumerates f bs) {b : β} :
    b ∈ bs ↔ ∃ a, f a = some b := by
  obtain ⟨entries, rfl, -, hmem⟩ := h
  simp [hmem]

end Enumerates

mutual

/-- The positions of a geometry are those at its addresses, in their order. -/
theorem enumerates_positions : ∀ g : Geometry α, Enumerates g.at? g.positions
  | .point p => .leaf p
  | .lineString ps | .linearRing ps | .multiPoint ps => .line ps
  | .polygon p => .lines p.rings
  | .multiLineString lines => .lines lines
  | .multiPolygon polygons => by
    have hflatten : (polygons.flatMap Polygon.rings).flatten =
        polygons.flatMap fun p => p.rings.flatten := by
      simp only [List.flatten_eq_flatMap, List.flatMap_assoc]
    rw [positions, hflatten]
    exact .under (fun p => .lines p.rings) polygons
  | .collection members => by
    rw [at?_collection]
    exact enumerates_positionsOfAll members

theorem enumerates_positionsOfAll : ∀ members : List (Geometry α),
    Enumerates (under at? members) (positionsOfAll members)
  | [] => .under_nil at?
  | member :: members => (enumerates_positions member).under_cons (enumerates_positionsOfAll members)

end

/-! ## Emptiness -/

mutual

theorem positions_ne_nil : ∀ {g : Geometry α}, g.isEmpty = false → g.positions ≠ []
  | .point _, _ => List.cons_ne_nil _ _
  | .lineString ps, h | .linearRing ps, h | .multiPoint ps, h => List.isEmpty_eq_false_iff.1 h
  | .polygon p, h => List.flatten_ne_nil_iff.2
      ⟨p.shell, List.mem_cons_self, List.isEmpty_eq_false_iff.1 h⟩
  | .multiLineString lines, h => by
    obtain ⟨line, hline, hne⟩ := List.all_eq_false.1 h
    exact List.flatten_ne_nil_iff.2 ⟨line, hline, by simpa using hne⟩
  | .multiPolygon polygons, h => by
    obtain ⟨p, hp, hne⟩ := List.all_eq_false.1 h
    have hshell : p.shell ∈ polygons.flatMap Polygon.rings :=
      List.mem_flatMap.2 ⟨p, hp, List.mem_cons_self⟩
    exact List.flatten_ne_nil_iff.2 ⟨p.shell, hshell, by simpa using hne⟩
  | .collection members, h => positionsOfAll_ne_nil h

theorem positionsOfAll_ne_nil :
    ∀ {members : List (Geometry α)}, areEmpty members = false → positionsOfAll members ≠ []
  | member :: members, h => by
    intro hnil
    obtain ⟨hmember, hmembers⟩ := List.append_eq_nil_iff.1 hnil
    rcases Bool.and_eq_false_iff.1 h with h | h
    · exact positions_ne_nil h hmember
    · exact positionsOfAll_ne_nil h hmembers

end

theorem isEmpty_of_finish {isRing : Bool} {shape : Wkt.Shape} {g : Geometry Float}
    (h : finish isRing shape = .ok g) : g.isEmpty = false := by
  unfold finish at h
  split at h
  · obtain ⟨-, hthrow⟩ | ⟨hempty, hfound⟩ := ite_eq_iff.1 h
    · cases hthrow
    · rw [← Except.ok.inj hfound]
      exact Bool.eq_false_iff.2 hempty
  · cases h

/-- A geometry that is read is not empty. -/
theorem isEmpty_of_readAny {text : String} {g : Geometry Float} (h : readAny text = .ok g) :
    g.isEmpty = false := by
  obtain ⟨shape, -, hfinish⟩ := bind_eq_ok_iff.1 h
  exact isEmpty_of_finish hfinish

/-! ## The check of latitudes -/

/-- That the latitude of a position lies on the globe. -/
def OnGlobe (p : Position Float) : Prop := -90.0 ≤ p.y ∧ p.y ≤ 90.0

/-- For every text: what is read has a position; with the check of latitudes the same is read if and
only if all positions, at whatever depth, are on the globe; if one is not, the first of them in the
order of reading is reported; and what is refused without the check is refused alike with it. -/
theorem read_bounded (text : String) :
    (∀ g, read false text = .ok g → ∃ a p, g.at? a = some p) ∧
    (∀ g, read true text = .ok g ↔
      read false text = .ok g ∧ ∀ a p, g.at? a = some p → OnGlobe p) ∧
    (∀ g, read false text = .ok g → (∃ a p, g.at? a = some p ∧ ¬ OnGlobe p) →
      ∃ a p, g.at? a = some p ∧ ¬ OnGlobe p ∧
        (∀ b q, g.at? b = some q → b < a → OnGlobe q) ∧
        read true text = .error (.outOfBounds p)) ∧
    ∀ fault, read false text = .error fault → read true text = .error fault := by
  rw [read_eq_readAny]
  refine ⟨fun g hread => ?_, fun g => ?_, fun g hread hoff => ?_, fun fault hread => ?_⟩
  · obtain ⟨p, hp⟩ := List.exists_mem_of_ne_nil _ (positions_ne_nil (isEmpty_of_readAny hread))
    obtain ⟨a, ha⟩ := (enumerates_positions g).mem_iff.1 hp
    exact ⟨a, p, ha⟩
  · rw [read_eq_ok_iff]
    refine and_congr_right fun _ => ?_
    constructor
    · intro h a p ha
      exact hasLatitude_iff.1 (h p ((enumerates_positions g).mem_iff.2 ⟨a, ha⟩))
    · intro h p hp
      obtain ⟨a, ha⟩ := (enumerates_positions g).mem_iff.1 hp
      exact hasLatitude_iff.2 (h a p ha)
  · obtain ⟨a, p, ha, hp⟩ := hoff
    have hmem : p ∈ g.positions := (enumerates_positions g).mem_iff.2 ⟨a, ha⟩
    rw [read_of_readAny hread]
    cases hfind : g.positions.find? fun p => !hasLatitude p with
    | none =>
      have hon := List.find?_eq_none.1 hfind p hmem
      exact absurd (hasLatitude_iff.1 (by simpa using hon)) hp
    | some first =>
      obtain ⟨b, hb, hleast⟩ := (enumerates_positions g).exists_find? hfind
      have hfirst : hasLatitude first = false := by simpa using List.find?_some hfind
      refine ⟨b, first, hb, ?_, fun c q hc hlt => ?_, rfl⟩
      · rw [OnGlobe, ← hasLatitude_iff, hfirst]
        exact Bool.false_ne_true
      · exact hasLatitude_iff.1 (by simpa using hleast c q hc hlt)
  · unfold read
    rw [hread]
    rfl

/-- A collection with a hole that leaves the globe, and a point after it that does too. -/
def strayHole : String :=
  "GEOMETRYCOLLECTION (POINT (0 10),POLYGON ((0 0,9 0,9 9,0 0),(1 1,3 1,3 95,1 1)),POINT (7 -91))"

/-- The position reported is the one in the hole. -/
theorem read_bounded_strayHole :
    ∃ g p, read false strayHole = .ok g ∧ g.at? [1, 1, 2] = some p ∧ ¬ OnGlobe p ∧
      (¬ ∃ g', read true strayHole = .ok g') ∧
      ∃ a q, g.at? a = some q ∧ ¬ OnGlobe q ∧ (∀ b r, g.at? b = some r → b < a → OnGlobe r) ∧
        read true strayHole = .error (.outOfBounds q) := by
  have hstray : ((read false strayHole).toOption.any fun g =>
      (g.at? [1, 1, 2]).any fun p => !hasLatitude p) = true := by decide +kernel
  obtain ⟨g, hg, hany⟩ := (Option.any_eq_true _ _).1 hstray
  obtain ⟨p, hp, hoff⟩ := (Option.any_eq_true _ _).1 hany
  have hread := toOption_eq_some_iff.1 hg
  have hstrays : ¬ OnGlobe p := fun h => by simp [hasLatitude_iff.2 h] at hoff
  obtain ⟨-, hbounded, hfirst, -⟩ := read_bounded strayHole
  refine ⟨g, p, hread, hp, hstrays, ?_, hfirst g hread ⟨[1, 1, 2], p, hp, hstrays⟩⟩
  rintro ⟨g', hg'⟩
  obtain ⟨hsame, hall⟩ := (hbounded g').1 hg'
  rw [hread] at hsame
  cases hsame
  exact hstrays (hall _ _ hp)

end OccurrenceQuery.Geometry
