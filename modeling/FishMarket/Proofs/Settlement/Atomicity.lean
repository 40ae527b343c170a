import FishMarket.Proofs.Settlement.Course

/-! # Settlements are all or nothing

A bid is placed among others who use the same market and the same cache: between two calls of the
placement anybody may make any calls, transactions of their own included, and each call of the
placement may fail. Still nothing can be seen of it before its commit, and the commit records the
sale together with the bid.
-/

namespace FishMarket

open Calendar

variable {α : Type}

/-! ## A routine among others -/

/-- The course of a routine, and the service that it shares with others. -/
structure Interleaving (α : Type) where
  course : Course α
  service : Service

/-- What happens next. -/
inductive Turn where
  /-- The routine makes its next call. -/
  | own (reception : Reception)
  /-- Somebody else makes a call. -/
  | other (call : ServiceCall) (reception : Reception)
  /-- The next bid is to be refused. -/
  | refuseBid
  | wait (elapsed : Nat)

namespace Interleaving

/-- A routine that has not begun, and a service to which nothing has happened. -/
def start (routine : ServiceRoutine α) : Interleaving α where
  course := .start routine
  service := .initial

/-- Takes a turn. Others do not have the handles of the routine, so a call that names one of them is
not made. -/
def take (interleaving : Interleaving α) : Turn → Interleaving α
  | .own reception =>
    let (course, service) := interleaving.course.advance reception interleaving.service
    { course, service }
  | .other call reception =>
    if ∃ transaction ∈ interleaving.course.handles, call.transaction? = some transaction then
      interleaving
    else { interleaving with service := (interleaving.service.receive call reception).2 }
  | .refuseBid => { interleaving with service := interleaving.service.refuseBid }
  | .wait elapsed => { interleaving with service := interleaving.service.wait elapsed }

/-- Takes turns. -/
def play (interleaving : Interleaving α) (turns : List Turn) : Interleaving α :=
  turns.foldl take interleaving

end Interleaving

/-! ## What can be seen of an act -/

namespace Act

/-- Whether nothing can be seen of an act. -/
structure Hidden (act : Act) : Prop where
  commits : act.commits = false
  entities : act.after.market.entities = act.before.market.entities
  cache : act.after.cache = act.before.cache

/-- Whether an act is the commit by which a placed bid and the sale of its item are recorded. -/
structure Settles (place : PlaceBid) (now : Instant) (placed : Bid) (act : Act) : Prop where
  commits : act.commits = true
  records : Settlement.Records place now placed
  fresh : ¬ act.before.market.Denotes placed.id
  present : act.before.market.items.contains place.itemId = true
  entities : act.after.market.entities = act.before.market.entities.settle placed
  cache : act.after.cache = act.before.cache

/-- Whether an act takes a key out of the cache, or fails to, and does nothing else. -/
structure Forgets (key : String) (act : Act) : Prop where
  call : act.call = .cache (.delete key)
  market : act.after.market = act.before.market
  cache : act.after.cache =
    if act.reception = .answered then act.before.cache.erase key else act.before.cache

theorem Forgets.commits {key : String} {act : Act} (hforgets : act.Forgets key) :
    act.commits = false := by
  obtain ⟨call, reception, service⟩ := act
  obtain rfl : call = .cache (.delete key) := hforgets.call
  rfl

end Act

namespace Settlement

variable {place : PlaceBid} {now : Instant} {phase : Settlement} {acts : List Act} {act : Act}

/-- What the acts of a placement have done, given how far they have come. -/
def History (place : PlaceBid) (now : Instant) (acts : List Act) : Settlement → Prop
  | settled placed => ∃ earlier commit, acts = earlier ++ [commit] ∧
      (∀ act ∈ earlier, act.Hidden) ∧ commit.Settles place now placed
  | announced placed => ∃ earlier commit deletion, acts = earlier ++ [commit, deletion] ∧
      (∀ act ∈ earlier, act.Hidden) ∧ commit.Settles place now placed ∧
      deletion.Forgets (Cache.itemKey place.itemId)
  | _ => ∀ act ∈ acts, act.Hidden

theorem history_iff (hsettled : phase.settled? = none) :
    History place now acts phase ↔ ∀ act ∈ acts, act.Hidden := by
  cases phase with
  | settled | announced => cases hsettled
  | idle | opened | marked | staged => exact Iff.rfl

/-- Every act of a placement is hidden, or the commit, or the deletion. -/
theorem History.cases (hhistory : History place now acts phase) (hmem : act ∈ acts) :
    act.Hidden ∨ (∃ placed, act.Settles place now placed) ∨
      act.Forgets (Cache.itemKey place.itemId) := by
  cases phase with
  | idle | opened | marked | staged => exact .inl (hhistory act hmem)
  | settled placed =>
      obtain ⟨earlier, commit, rfl, hearlier, hcommit⟩ := hhistory
      rcases List.mem_append.mp hmem with hmem | hmem
      · exact .inl (hearlier act hmem)
      · obtain rfl := List.mem_singleton.mp hmem
        exact .inr (.inl ⟨placed, hcommit⟩)
  | announced placed =>
      obtain ⟨earlier, commit, deletion, rfl, hearlier, hcommit, hdeletion⟩ := hhistory
      rcases List.mem_append.mp hmem with hmem | hmem
      · exact .inl (hearlier act hmem)
      · rcases List.mem_cons.mp hmem with rfl | hmem
        · exact .inr (.inl ⟨placed, hcommit⟩)
        · obtain rfl := List.mem_singleton.mp hmem
          exact .inr (.inr hdeletion)

/-- Until its commit, a staged bid has an id that no entity has. -/
theorem fresh_of_fits {market : Market} {transaction : TransactionId} {bid : Bid}
    (hconsistent : market.Consistent) (hfits : market.Fits (staged transaction bid)) :
    ¬ market.Denotes bid.id := by
  have hwrites := Table.mem_values_iff.mpr ⟨transaction, hfits transaction rfl⟩
  have hstaged : bid ∈ market.stagedBids := by
    refine List.mem_filterMap.mpr ⟨.bid bid, List.mem_flatten.mpr ⟨_, hwrites, ?_⟩, rfl⟩
    exact List.mem_cons_of_mem _ List.mem_cons_self
  intro hdenotes
  have hdistinct := List.nodup_append.mp hconsistent.numbered.distinct
  exact hdistinct.2.2 _ hdenotes _ (List.mem_map_of_mem hstaged) rfl

/-- Each act of a placement is hidden up to the commit; after the commit comes the deletion. -/
theorem Stride.history (hstride : Stride place phase act.call act.before act.answer act.after)
    (hconsistent : act.before.market.Consistent) (hfits : act.before.market.Fits phase)
    (hrecords : ∀ bid, phase.bid? = some bid → Records place now bid)
    (hhistory : History place now acts phase) :
    History place now (acts ++ [act]) (phase.after act.call act.answer) := by
  cases hstride with
  | hidden hentities hcache hcommits hbefore hafter =>
      rw [history_iff hbefore] at hhistory
      rw [history_iff hafter]
      intro other hmem
      rcases List.mem_append.mp hmem with hearlier | hlast
      · exact hhistory other hearlier
      · obtain rfl := List.mem_singleton.mp hlast
        exact ⟨hcommits, hentities, hcache⟩
  | settles transaction bid hphase hready hservice hcommits hstaged hafter =>
      -- all acts so far are hidden, since nothing had been settled
      subst hphase
      have hbid := hrecords bid rfl
      rw [hafter]
      refine ⟨acts, act, rfl, hhistory, ?_⟩
      refine ⟨hcommits, hbid, fresh_of_fits hconsistent hfits, ?_, ?_, ?_⟩
      · exact hbid.itemId ▸ hfits.contains hready
      · rw [hservice]
        exact hfits.entities_committed
      · rw [hservice]
  | forgets bid hphase hcall hmarket hcommits hstaged hafter =>
      subst hphase
      rw [hafter]
      obtain ⟨earlier, commit, rfl, hearlier, hcommit⟩ := hhistory
      refine ⟨earlier, commit, act, List.append_assoc .., hearlier, hcommit, hcall, hmarket, ?_⟩
      obtain ⟨call, reception, service⟩ := act
      obtain rfl : call = _ := hcall
      cases reception <;> rfl

end Settlement

/-! ## Placements among others -/

namespace Interleaving

/-- What holds of a placement among others at all times. -/
structure Orderly (place : PlaceBid) (now : Instant)
    (interleaving : Interleaving (Except Failure Bid)) : Prop where
  consistent : interleaving.service.market.Consistent
  sound : interleaving.course.Sound (Settlement.Places place now) Settlement.Concludes
    interleaving.service.market
  history : Settlement.History place now interleaving.course.acts interleaving.course.phase

namespace Orderly

variable {place : PlaceBid} {now : Instant} {interleaving : Interleaving (Except Failure Bid)}

theorem start (place : PlaceBid) (now : Instant) :
    (Interleaving.start (Command.placeBid place now).run).Orderly place now := by
  have hfulfils := Command.placeBid_fulfils place now
  generalize (Command.placeBid place now).run = routine at hfulfils ⊢
  exact ⟨.initial, .start hfulfils _, fun act hmem => absurd hmem List.not_mem_nil⟩

/-- A turn of somebody else changes nothing about the placement. -/
theorem foreign (horderly : interleaving.Orderly place now) {service : Service}
    (hconsistent : service.market.Consistent)
    (hsound : interleaving.course.Sound (Settlement.Places place now) Settlement.Concludes
      service.market) : Orderly place now { interleaving with service := service } :=
  ⟨hconsistent, hsound, horderly.history⟩

theorem own (horderly : interleaving.Orderly place now) (reception : Reception) :
    (interleaving.take (.own reception)).Orderly place now := by
  obtain ⟨⟨acts, rest⟩, service⟩ := interleaving
  cases rest with
  | done result => exact horderly
  | ask call next =>
      obtain ⟨hconsistent, hsound, hhistory⟩ := horderly
      let act : Act := ⟨call, reception, service⟩
      have hphase := Course.phase_append acts act (next act.answer)
      obtain ⟨hstride, -⟩ := hsound.promise.1.stride hsound.fits reception
      refine ⟨?_, ?_, ?_⟩
      · exact Service.consistent_receive hconsistent call reception
      · exact hsound.act (fun _ _ => .places) reception
      · change Settlement.History place now (acts ++ [act])
          (⟨acts ++ [act], next act.answer⟩ : Course _).phase
        rw [hphase]
        exact Settlement.Stride.history hstride hconsistent hsound.fits
          (fun bid hbid => hsound.records (hsound.reflects.2 bid hbid)) hhistory

theorem take (horderly : interleaving.Orderly place now) (turn : Turn) :
    (interleaving.take turn).Orderly place now := by
  have hconsistent := horderly.consistent
  have hsound := horderly.sound
  cases turn with
  | own reception => exact horderly.own reception
  | other call reception =>
      simp only [Interleaving.take]
      split
      next => exact horderly
      next hnamed =>
        refine horderly.foreign (Service.consistent_receive hconsistent call reception) ?_
        exact hsound.receive hconsistent.handled
          (fun transaction hmem heq => hnamed ⟨transaction, hmem, heq⟩) reception
  | refuseBid =>
      have hchange : Market.Change interleaving.service.market none
          interleaving.service.refuseBid.market := .refusalSet true
      refine horderly.foreign (hconsistent.change hchange) ?_
      exact hsound.change hconsistent.handled hchange nofun
  | wait elapsed => exact horderly.foreign hconsistent hsound

theorem play (horderly : interleaving.Orderly place now) (turns : List Turn) :
    (interleaving.play turns).Orderly place now := by
  induction turns generalizing interleaving with
  | nil => exact horderly
  | cons turn rest ih => exact ih (horderly.take turn)

end Orderly

end Interleaving

/-- A bid is placed among others, from the start of the market on and up to any moment. No act of
the placement other than a commit that succeeds changes any entity. If the placement has ended well,
its last two acts are the commit, which records the placed bid and the sale of its item and nothing
else, and the deletion of the item from the cache; if it has ended with a failure, nothing can be
seen of any of its acts. -/
theorem Command.placeBid_all_or_nothing (place : PlaceBid) (now : Instant) (turns : List Turn) :
    let course := ((Interleaving.start (Command.placeBid place now).run).play turns).course
    (∀ act ∈ course.acts, act.commits = false →
      act.after.market.entities = act.before.market.entities) ∧
    (∀ act ∈ course.acts, act.commits = true → ∃ placed, act.Settles place now placed) ∧
    (∀ placed, course.result? = some (.ok placed) →
      ∃ earlier commit deletion, course.acts = earlier ++ [commit, deletion] ∧
        (∀ act ∈ earlier, act.Hidden) ∧ commit.Settles place now placed ∧
        deletion.Forgets (Cache.itemKey place.itemId)) ∧
    (∀ failure, course.result? = some (.error failure) → ∀ act ∈ course.acts, act.Hidden) := by
  intro course
  obtain ⟨-, hsound, hhistory⟩ :=
    (Interleaving.Orderly.start place now).play turns
  refine ⟨fun act hmem hfails => ?_, fun act hmem hcommits => ?_, fun placed hresult => ?_,
    fun failure hresult => ?_⟩
  · rcases hhistory.cases hmem with hhidden | ⟨placed, hsettles⟩ | hforgets
    · exact hhidden.entities
    · exact absurd (hsettles.commits.symm.trans hfails) nofun
    · exact congrArg Market.entities hforgets.market
  · rcases hhistory.cases hmem with hhidden | hsettles | hforgets
    · exact absurd (hhidden.commits.symm.trans hcommits) nofun
    · exact hsettles
    · exact absurd (hforgets.commits.symm.trans hcommits) nofun
  · have hphase := (hsound.concludes hresult).announced
    rw [hphase] at hhistory
    exact hhistory
  · have hphase := (hsound.concludes hresult).idle
    rw [hphase] at hhistory
    exact hhistory

example (now : Instant) (date : Date) :
    ((Interleaving.start (Command.placeBid ⟨4, 5, 100⟩ now).run).play [
      .other (.store (.createVenue ⟨"", "", ""⟩ now)) .answered,
      .other (.store (.createAuction ⟨1, date, none, none, none⟩ now)) .answered,
      .other (.store (.createFisherman "" now)) .answered,
      .other (.store (.createItem ⟨2, 3, "", 1, "", none, 1⟩ now)) .answered,
      .own .answered,
      .other (.store (.createBuyer "" now)) .answered,
      .own .answered, .own .answered, .own .answered, .own .answered]).course.result? =
    some (.ok ⟨6, 4, 5, 100, now⟩) := by
  cbv

end FishMarket
