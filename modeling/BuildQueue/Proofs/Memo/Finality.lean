import BuildQueue.Proofs.Memo.Stamps

/-!
# Invalidation is final

After a key was invalidated, or the table cleared, no slot belongs to a fill of the key that had
started before, and a get that looks the key up from then on comes to a later fill, however late
the old ones end and whoever still waits for them.
-/

namespace BuildQueue
namespace Usage

variable {κ ν ε : Type}

/-- The service is traced, every get waits for a fill of its key, and one that is among those that
looked their keys up waits for a fill that serves its key. -/
structure Traced
    (key : κ)
    (bound : Nat)
    (looked : Nat → Prop)
    (usage : Usage κ (Stamped ν) (Stamped ε)) : Prop where
  service : usage.service.Traced key bound
  own : ∀ {number get}, usage.live? number = some get → usage.service.Waits key 0 get
  fresh : ∀ {number get}, usage.live? number = some get → looked number →
    usage.service.Waits key bound get

/-- The gets of a usage that look their keys up in some visits. -/
def LookedUp (visits : List (Visit κ ν ε)) (number : Nat) : Prop :=
  ∃ visit ∈ visits, visit.number = number ∧ visit.LooksUp

theorem lookedUp_append (first rest : List (Visit κ ν ε)) (number : Nat) :
    LookedUp (first ++ rest) number ↔ LookedUp first number ∨ LookedUp rest number := by
  simp only [LookedUp, List.mem_append, or_and_right, exists_or]

variable {key : κ} {bound : Nat} {looked : Nat → Prop} {usage : Usage κ (Stamped ν) (Stamped ε)}

theorem Traced.mono
    (traced : usage.Traced key bound looked)
    {fewer : Nat → Prop}
    (included : ∀ number, fewer number → looked number) :
    usage.Traced key bound fewer :=
  ⟨traced.service, traced.own, fun live seen => traced.fresh live (included _ seen)⟩

theorem Traced.setService
    (traced : usage.Traced key bound looked)
    {service : MemoService κ (Stamped ν) (Stamped ε)}
    (later : service.Traced key bound)
    (extension : service.Extends usage.service) :
    Traced key bound looked { usage with service } :=
  ⟨later, fun live => (traced.own live).extends extension,
    fun live seen => (traced.fresh live seen).extends extension⟩

theorem Traced.setGet
    (traced : usage.Traced key bound looked)
    {service : MemoService κ (Stamped ν) (Stamped ε)}
    (later : service.Traced key bound)
    (extension : service.Extends usage.service)
    {number : Nat}
    {left : Option (Get κ)}
    {more : Nat → Prop}
    (own : ∀ get, left = some get → service.Waits key 0 get)
    (fresh : ∀ get, left = some get → more number → service.Waits key bound get)
    (others : ∀ other, other ≠ number → more other → looked other) :
    Traced key bound more ⟨service, usage.gets.set number left⟩ := by
  refine ⟨later, fun live => ?_, fun live seen => ?_⟩
  · rcases live?_set live with ⟨-, kept⟩ | ⟨-, before⟩
    · exact own _ kept
    · exact (traced.own before).extends extension
  · rcases live?_set live with ⟨rfl, kept⟩ | ⟨different, before⟩
    · exact fresh _ kept seen
    · exact (traced.fresh before (others _ different seen)).extends extension

section Step

variable [DecidableEq κ]

/-- A poll comes to a fill that serves a look-up if the get has looked its key up by then. -/
theorem Traced.comesTo
    (traced : usage.Traced key bound looked)
    {number : Nat}
    {get : Get κ}
    (live : usage.live? number = some get)
    (seen : looked number ∨ LookedUp (usage.visits (.poll number)) number) :
    MemoService.ComesTo (usage.service.poll get).2 key bound get.key
      (usage.service.poll get).1 := by
  rcases seen with before | ⟨visit, listed, -, looksUp⟩
  · exact (traced.service.rounds (Nat.le_refl bound) (traced.fresh live before) _).2
  · simp only [visits, live] at listed
    obtain ⟨found, rounds, rfl⟩ := List.mem_map.1 listed
    exact traced.service.rounds_looked (Nat.zero_le bound) (traced.own live)
      ⟨found, rounds, looksUp⟩

/-- The visits of a poll are those of the get that is polled. -/
theorem number_of_mem_visits
    {usage : Usage κ ν ε}
    {number : Nat}
    {visit : Visit κ ν ε}
    (listed : visit ∈ usage.visits (.poll number)) :
    visit.number = number := by
  cases live : usage.live? number with
  | none =>
      simp only [visits, live] at listed
      cases listed
  | some get =>
      simp only [visits, live] at listed
      obtain ⟨found, -, rfl⟩ := List.mem_map.1 listed
      rfl

theorem Traced.poll
    (traced : usage.Traced key bound looked)
    {number : Nat}
    {get : Get κ}
    (live : usage.live? number = some get) :
    (usage.poll number get).Traced key bound fun other =>
      looked other ∨ LookedUp (usage.visits (.poll number)) other := by
  obtain ⟨later, own⟩ :=
    traced.service.rounds (Nat.zero_le bound) (traced.own live) MemoService.maxRounds
  have extension := MemoService.extends_poll usage.service get
  have fresh := traced.comesTo live
  have others : ∀ other, other ≠ number →
      looked other ∨ LookedUp (usage.visits (.poll number)) other → looked other := by
    rintro other different (before | ⟨visit, listed, rfl, -⟩)
    · exact before
    · exact absurd (number_of_mem_visits listed) different
  unfold Usage.poll
  change MemoService.Traced key bound (usage.service.poll get).2 at later
  change MemoService.ComesTo (usage.service.poll get).2 key 0 get.key
    (usage.service.poll get).1 at own
  generalize usage.service.poll get = outcome at later extension own fresh ⊢
  obtain ⟨progress, service⟩ := outcome
  cases progress with
  | returned result =>
      exact traced.setGet later extension (fun _ kept => by cases kept)
        (fun _ kept => by cases kept) others
  | pending left =>
      refine traced.setGet later extension ?_ ?_ others
      · rintro _ ⟨⟩
        exact own.2
      · rintro _ ⟨⟩ seen
        exact (fresh seen).2

omit [DecidableEq κ] in
/-- Where nothing is visited no get looks its key up. -/
theorem Traced.quiet
    (traced : usage.Traced key bound looked) :
    usage.Traced key bound fun number =>
      looked number ∨ LookedUp ([] : List (Visit κ (Stamped ν) (Stamped ε))) number := by
  refine traced.mono ?_
  rintro number (before | ⟨visit, none, -⟩)
  · exact before
  · cases none

/-- A use keeps a usage traced. The gets that it lets look their keys up wait for fills that serve
these. -/
theorem Traced.step
    (traced : usage.Traced key bound looked)
    (use : Use κ ν ε) :
    (usage.step use.stamped).Traced key bound fun number =>
      looked number ∨ LookedUp (usage.visits use.stamped) number := by
  cases use with
  | begin owner =>
      refine Traced.quiet ⟨traced.service, fun live => ?_, fun live seen => ?_⟩
      · rcases live?_begin live with before | fresh
        · exact traced.own before
        · exact MemoService.waits_of_awaits_none fresh
      · rcases live?_begin live with before | fresh
        · exact traced.fresh before seen
        · exact MemoService.waits_of_awaits_none fresh
  | poll number =>
      cases live : usage.live? number with
      | none => 
          simp only [Use.stamped, Usage.step, visits, live]
          exact traced.quiet
      | some get =>
          have polled := traced.poll live
          simpa only [Use.stamped, Usage.step, live] using polled
  | drop number =>
      exact Traced.quiet (traced.setGet traced.service (.refl _) (fun _ kept => by cases kept)
        (fun _ kept => by cases kept) fun _ _ seen => seen)
  | settle generation result =>
      exact Traced.quiet (traced.setService (traced.service.settle generation result)
        (.of_fillKeys_eq (MemoService.fillKeys_settle ..)))
  | invalidate other =>
      exact Traced.quiet (traced.setService
        (traced.service.setMemo (traced.service.slots.invalidate other) rfl) (.refl _))
  | clear =>
      exact Traced.quiet (traced.setService
        (traced.service.setMemo (fun _ listed => by cases listed) rfl) (.refl _))
  | present other =>
      exact Traced.quiet (traced.setService
        (traced.service.setMemo (traced.service.slots.touch other)
          (Memo.nextGeneration_touch ..)) (.refl _))
  | tick instant =>
      exact Traced.quiet (traced.setService ⟨traced.service.slots, traced.service.states,
        traced.service.results, traced.service.generation, traced.service.bounded⟩ (.refl _))

/-- A run keeps a usage traced. -/
theorem Traced.run
    (traced : usage.Traced key bound looked)
    (uses : List (Use κ ν ε)) :
    (usage.run (uses.map Use.stamped)).Traced key bound fun number =>
      looked number ∨ LookedUp (usage.trail (uses.map Use.stamped)) number := by
  induction uses generalizing usage looked with
  | nil => exact traced.quiet
  | cons use rest inductionHypothesis =>
      refine (inductionHypothesis (traced.step use)).mono ?_
      rintro number (before | seen)
      · exact .inl (.inl before)
      · exact ((lookedUp_append ..).1 seen).imp_left .inr

omit [DecidableEq κ] in
theorem traced_ofMemo
    (key : κ)
    (place : κ → Nat)
    (entryLimit shards : Nat)
    (ttl : Option Nat)
    (filler : Filler κ ν ε) :
    Traced key 0 (fun _ => False)
      (.ofMemo (.empty place entryLimit shards ttl) filler.stamped) :=
  ⟨MemoService.traced_ofMemo place entryLimit shards ttl filler, (by cases ·), (by cases ·)⟩

/-- Once a key is dropped from the table all its fills so far are old, for every slot and for
whoever looks the key up later. -/
theorem Traced.drop
    (traced : usage.Traced key 0 looked)
    {drop : Use κ ν ε}
    (drops : drop = .invalidate key ∨ drop = .clear) :
    (usage.step drop.stamped).Traced key (usage.step drop.stamped).service.fillKeys.length
      fun _ => False := by
  have kept := traced.step drop
  refine ⟨kept.service.raise ?_, kept.own, fun _ seen => seen.elim⟩
  intro entry listed
  rcases drops with rfl | rfl
  · exact bne_iff_ne.1 (List.mem_filter.1 listed).2
  · cases listed

end Step

section Final

variable
  [DecidableEq κ]
  (place : κ → Nat)
  (entryLimit shards : Nat)
  (ttl : Option Nat)
  (filler : Filler κ ν ε)
  (before after : List (Use κ ν ε))
  (key : κ)

/-- Invalidation is final. In a run in which every result carries the number of its fill, let a key
be invalidated, or the table be cleared, at any point. From then on no slot belongs to a fill of
the key that had started before, so none of these fills makes the key present, and a get that has
looked the key up since then never returns the value or the error of one. But for the numbers the
run is that of the service itself. -/
theorem invalidation_final
    {drop : Use κ ν ε}
    (drops : drop = .invalidate key ∨ drop = .clear) :
    let dropped := (ofMemo (.empty place entryLimit shards ttl) filler.stamped).run
      ((before ++ [drop]).map Use.stamped)
    let last := dropped.run (after.map Use.stamped)
    last.map Stamped.content Stamped.content =
        (ofMemo (.empty place entryLimit shards ttl) filler).run (before ++ drop :: after) ∧
      (∀ number get result, last.live? number = some get →
        LookedUp (dropped.trail (after.map Use.stamped ++ [.poll number])) number →
        (last.service.poll get).1 = .returned result → ¬ dropped.Filled key (origin result)) ∧
      ((last.service.memo.isPresent last.service.now key).1 = true →
        ∃ value filledAt, last.service.memo.slot? key = some (.complete value filledAt) ∧
          ¬ dropped.Filled key value.fill) ∧
      ∀ entry ∈ last.service.memo.entries, ¬ dropped.Filled key entry.2.fill := by
  intro dropped last
  have runDropped : dropped =
      ((ofMemo (.empty place entryLimit shards ttl) filler.stamped).run
        (before.map Use.stamped)).step drop.stamped := by
    simp only [dropped, List.map_append, run_append]
    rfl
  have start := (traced_ofMemo key place entryLimit shards ttl filler).run before
  have fresh : dropped.Traced key dropped.service.fillKeys.length fun _ => False := by
    rw [runDropped]
    exact start.drop drops
  have traced := fresh.run after
  have extension : dropped.service.fillKeys <+: last.service.fillKeys :=
    extends_run dropped (after.map Use.stamped)
  have slots : last.service.memo.Every fun _ slot => ¬ dropped.Filled key slot.fill :=
    fun entry listed => (traced.service.slots entry listed).not_old extension
  refine ⟨?_, ?_, ?_, slots⟩
  · have whole : last = (ofMemo (.empty place entryLimit shards ttl) filler.stamped).run
        ((before ++ drop :: after).map Use.stamped) := by
      simp only [last, dropped, ← run_append, ← List.map_append, List.append_assoc,
        List.singleton_append]
    rw [whole, run_stamped]
    rfl
  · intro number get result live looked returned
    have seen : (False ∨ LookedUp (dropped.trail (after.map Use.stamped)) number) ∨
        LookedUp (last.visits (.poll number)) number := by
      rw [trail_append, lookedUp_append] at looked
      refine looked.imp .inr fun now => ?_
      simpa only [trail, List.append_nil] using now
    have comes := traced.comesTo live seen
    rw [returned] at comes
    exact comes.not_old (extension.trans (MemoService.extends_poll last.service get))
  · intro present
    simp only [Memo.isPresent] at present
    split at present
    · next value filledAt held =>
      have later := Memo.condition_of_slot? slots held
      exact ⟨value, filledAt, held, later⟩
    · cases present

end Final

/-- A key is invalidated while its fill runs and refilled. The get that comes second returns the
value of the second fill, although the first fill ended before. -/
theorem invalidation_final_refilled :
    let dropped := (ofMemo (.empty id 4 1 none) (Filler.manual []).stamped).run
      (([.begin 7, .poll 0] ++ [.invalidate 7] : List (Use Nat Nat Nat)).map Use.stamped)
    let last := dropped.run
      (([.begin 7, .poll 1, .settle 0 (.ok 10), .poll 0, .settle 1 (.ok 11)] :
        List (Use Nat Nat Nat)).map Use.stamped)
    dropped.Filled 7 0 ∧
      last.live? 1 = some ⟨7, some 1⟩ ∧
      (last.service.poll ⟨7, some 1⟩).1 = .returned (.ok ⟨1, 11⟩) ∧
      ¬ dropped.Filled 7 1 := by
  refine ⟨rfl, rfl, rfl, ?_⟩
  obtain ⟨-, returns, -⟩ := invalidation_final id 4 1 none (Filler.manual [])
    [.begin 7, .poll 0] [.begin 7, .poll 1, .settle 0 (.ok 10), .poll 0, .settle 1 (.ok 11)] 7
    (.inl rfl)
  exact returns 1 ⟨7, some 1⟩ (.ok ⟨1, 11⟩) rfl ⟨_, .head _, rfl, rfl⟩ rfl

end Usage

end BuildQueue
