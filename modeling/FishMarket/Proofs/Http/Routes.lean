import FishMarket.Http.Resource

/-! # Routes

A path and its parts between slashes are two views of the same. Each resource has a path of its own,
into which its id is written, and nothing is found under any other path.
-/

namespace FishMarket.Http

/-! ## Paths and their parts -/

namespace Path

theorem segments_cons {c : Char} (hc : c ≠ '/') {path part : List Char} {parts : List (List Char)}
    (hpath : segments path = part :: parts) : segments (c :: path) = (c :: part) :: parts := by
  unfold segments at hpath ⊢
  rw [List.foldr_cons, hpath]
  split
  next => contradiction
  next heq => cases heq; rfl
  next heq => cases heq

theorem segments_eq_splitOn (path : List Char) : segments path = path.splitOn '/' := by
  induction path with
  | nil => rfl
  | cons c rest ih =>
      rw [List.splitOn_cons_eq_if_modifyHead, ← ih]
      by_cases hc : c = '/'
      · subst hc
        rfl
      · have hne : segments rest ≠ [] := ih ▸ List.splitOn_ne_nil _ _
        obtain ⟨part, parts, hparts⟩ := List.exists_cons_of_ne_nil hne
        rw [if_neg (by simpa using hc), segments_cons hc hparts, hparts, List.modifyHead_cons]

/-- No part of a path has a slash in it. -/
theorem slash_notMem_of_mem_segments {path part : List Char} (hpart : part ∈ segments path) :
    '/' ∉ part := by
  rw [segments_eq_splitOn] at hpart
  induction path generalizing part with
  | nil => simp_all
  | cons c rest ih =>
      rw [List.splitOn_cons_eq_if_modifyHead] at hpart
      split at hpart
      next =>
        rcases List.mem_cons.mp hpart with rfl | hmem
        · exact List.not_mem_nil
        · exact ih hmem
      next hc =>
        obtain ⟨head, parts, hparts⟩ := List.exists_cons_of_ne_nil (List.splitOn_ne_nil '/' rest)
        rw [hparts] at hpart ih
        rcases List.mem_cons.mp hpart with rfl | hmem
        · intro hslash
          rcases List.mem_cons.mp hslash with rfl | hhead
          · exact hc rfl
          · exact ih List.mem_cons_self hhead
        · exact ih (List.mem_cons_of_mem _ hmem)

end Path

/-! ## Resources and their paths -/

namespace Resource

/-- The parts of the path of a resource. -/
def parts : Resource → List (List Char)
  | health => ["health".toList]
  | buyerBids => ["api".toList, "buyer".toList, "bids".toList]
  | venues => ["api".toList, "venues".toList]
  | venue id => ["api".toList, "venues".toList, id]
  | auctions => ["api".toList, "auctions".toList]
  | auction id => ["api".toList, "auctions".toList, id]
  | auctionItems id => ["api".toList, "auctions".toList, id, "items".toList]
  | auctionStatus id => ["api".toList, "auctions".toList, id, "status".toList]
  | item id => ["api".toList, "items".toList, id]
  | itemBids id => ["api".toList, "items".toList, id, "bids".toList]
  | itemHighestBid id => ["api".toList, "items".toList, id, "highest-bid".toList]
  | invoices => ["api".toList, "invoices".toList]
  | buyer id => ["api".toList, "buyers".toList, id]
  | fisherman id => ["api".toList, "fishermen".toList, id]
  | adminVenues => ["api".toList, "admin".toList, "venues".toList]
  | adminVenue id => ["api".toList, "admin".toList, "venues".toList, id]
  | adminAuctions => ["api".toList, "admin".toList, "auctions".toList]
  | adminAuction id => ["api".toList, "admin".toList, "auctions".toList, id]
  | adminItems => ["api".toList, "admin".toList, "items".toList]
  | adminItemStatus id => ["api".toList, "admin".toList, "items".toList, id, "status".toList]

/-- The path of a resource. -/
def path (resource : Resource) : List Char :=
  ['/'].intercalate ([] :: resource.parts)

/-- Whether the id of a resource may stand in its path: there is no slash in it, and it is not empty
at the end. -/
def IsProper (resource : Resource) : Prop :=
  (∀ part ∈ resource.parts, '/' ∉ part) ∧ resource.parts.getLast? ≠ some []

theorem map_ofList_eq_iff {parts : List (List Char)} {names : List String} :
    parts.map String.ofList = names ↔ parts = names.map String.toList := by
  constructor
  · rintro rfl
    simp [Function.comp_def]
  · rintro rfl
    simp [Function.comp_def]

theorem withId_eq_some_iff {make : List Char → Resource} {id : List Char} {resource : Resource} :
    withId make id = some resource ↔ id ≠ [] ∧ make id = resource := by
  simp [withId]

theorem ofApi?_eq_some_iff {parts : List (List Char)} {resource : Resource} :
    ofApi? parts = some resource ↔
      resource.parts = "api".toList :: parts ∧ resource.parts.getLast? ≠ some [] := by
  constructor
  · intro hresource
    unfold ofApi? at hresource
    split at hresource
    case h_20 => cases hresource
    all_goals
      next hnames =>
        rw [map_ofList_eq_iff] at hnames
        simp only [List.map, List.cons.injEq, and_true] at hnames
        simp only [withId_eq_some_iff, Option.some.injEq] at hresource
        first
          | subst hresource
            exact ⟨by simp [hnames, Resource.parts], by simp [Resource.parts]⟩
          | obtain ⟨hid, rfl⟩ := hresource
            exact ⟨by simp [hnames, Resource.parts], by simpa [Resource.parts] using hid⟩
  · rintro ⟨hparts, hlast⟩
    cases resource <;> simp [Resource.parts] at hparts hlast <;> subst hparts <;>
      simp [ofApi?, withId, hlast]

/-- All that is not below `/api` is the health of the service. -/
theorem parts_cases (resource : Resource) :
    resource = health ∨ ∃ rest, resource.parts = "api".toList :: rest := by
  cases resource with
  | health => exact .inl rfl
  | _ => exact .inr ⟨_, rfl⟩

theorem ofPath?_eq_some_iff_segments {path : List Char} {resource : Resource} :
    ofPath? path = some resource ↔
      Path.segments path = [] :: resource.parts ∧ resource.parts.getLast? ≠ some [] := by
  unfold ofPath?
  split
  next first rest hsegments =>
    rw [hsegments]
    by_cases hhealth : first = "health".toList ∧ rest = []
    · obtain ⟨rfl, rfl⟩ := hhealth
      cases resource <;> simp [Resource.parts]
    · rw [if_neg hhealth]
      by_cases hapi : first = "api".toList
      · subst hapi
        rw [if_pos rfl, ofApi?_eq_some_iff, List.cons.injEq, eq_comm (a := resource.parts)]
        simp
      · rw [if_neg hapi]
        refine ⟨nofun, fun ⟨hparts, _⟩ => ?_⟩
        have hparts := List.cons.inj hparts
        rcases resource.parts_cases with rfl | ⟨rest', hrest⟩
        · exact absurd (List.cons.inj hparts.2) hhealth
        · exact absurd (List.cons.inj (hparts.2.trans hrest)).1 hapi
  next hother =>
    refine ⟨nofun, fun ⟨hparts, _⟩ => ?_⟩
    rcases resource.parts_cases with rfl | ⟨rest, hrest⟩
    · exact absurd hparts (hother _ _)
    · exact absurd (hrest ▸ hparts) (hother _ _)

/-- Every resource has one path, and every path has at most one resource. -/
theorem ofPath?_eq_some_iff {path : List Char} {resource : Resource} :
    ofPath? path = some resource ↔ resource.IsProper ∧ path = resource.path := by
  rw [ofPath?_eq_some_iff_segments]
  constructor
  · rintro ⟨hsegments, hlast⟩
    refine ⟨⟨fun part hpart => ?_, hlast⟩, ?_⟩
    · exact Path.slash_notMem_of_mem_segments (hsegments ▸ List.mem_cons_of_mem _ hpart)
    · rw [Resource.path, ← hsegments, Path.segments_eq_splitOn, List.intercalate_splitOn]
  · rintro ⟨⟨hslashes, hlast⟩, rfl⟩
    refine ⟨?_, hlast⟩
    rw [Resource.path, Path.segments_eq_splitOn]
    exact List.splitOn_intercalate '/' (List.forall_mem_cons.mpr ⟨List.not_mem_nil, hslashes⟩)
      (List.cons_ne_nil _ _)

example : path (adminItemStatus "7".toList) = "/api/admin/items/7/status".toList := by decide

end Resource

end FishMarket.Http
