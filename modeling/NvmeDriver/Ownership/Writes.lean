import NvmeDriver.Ownership.Traffic

/-!
# Submissions and retries

Every submission but the first of a request uses up a retry, and a request that was
cancelled, or whose completion forbids retries, is not submitted again.
-/

namespace NvmeDriver
namespace Ownership

open Engine
open Lib

variable {env : Env} {P : Policy} {g g' : Cfg}

/-! ### The log and the requests on it -/

section Writes

/-- An effect that neither submits nor dooms a request. -/
def Idle (e : Effect) : Prop := ∀ n, isSqe n e = false ∧ dooms n e = false

theorem idle_quietFor {m : Nat} {e : Effect} (he : quietFor m e = true) : Idle e := by
  intro n
  cases e <;> first | (cases he; done) | exact ⟨rfl, rfl⟩

theorem idle_halting {e : Effect} (he : halting e = true) : Idle e := by
  intro n
  cases e <;> first | (cases he; done) | exact ⟨rfl, rfl⟩

theorem idle_reqFree (m : Nat) : Idle (.reqFree m) := fun _ => ⟨rfl, rfl⟩

theorem idle_cons {e : Effect} {es : List Effect} (he : Idle e) (hes : ∀ e, e ∈ es → Idle e) :
    ∀ e', e' ∈ e :: es → Idle e' := by
  intro e' he'
  rcases List.mem_cons.mp he' with rfl | he'
  · exact he
  · exact hes e' he'

theorem countP_isSqe_idle {es tr : List Effect} (hes : ∀ e, e ∈ es → Idle e) (n : Nat) :
    (es ++ tr).countP (isSqe n) = tr.countP (isSqe n) := by
  rw [List.countP_append, List.countP_eq_zero.mpr, Nat.zero_add]
  intro e he
  rw [(hes e he n).1]
  exact Bool.false_ne_true

theorem doomed_idle {es tr : List Effect} (hes : ∀ e, e ∈ es → Idle e) (n : Nat) :
    Doomed n (es ++ tr) ↔ Doomed n tr := by
  constructor
  · rintro ⟨e, he, hd⟩
    rcases List.mem_append.mp he with he | he
    · rw [(hes e he n).2] at hd
      cases hd
    · exact ⟨e, he, hd⟩
  · rintro ⟨e, he, hd⟩
    exact ⟨e, List.mem_append_right _ he, hd⟩

theorem doomed_cons {e : Effect} {tr : List Effect} {n : Nat} :
    Doomed n (e :: tr) ↔ dooms n e = true ∨ Doomed n tr := by
  simp [Doomed]

theorem never_append {es tr : List Effect} (hes : ∀ e, e ∈ es → ∀ n, isSqe n e = false)
    (htr : tr.Pairwise NeverAgain) : (es ++ tr).Pairwise NeverAgain := by
  induction es with
  | nil => exact htr
  | cons e es ih =>
      have hnew : ∀ older, NeverAgain e older := fun _ n _ => hes e (List.mem_cons_self ..) n
      refine List.pairwise_cons.mpr ⟨fun older _ => hnew older, ?_⟩
      exact ih fun e' he' => hes e' (List.mem_cons_of_mem _ he')

/-- A request in hand is nowhere else. -/
theorem hand_alone {r : Request} (hids : ∀ n, idCount n g ≤ 1) (hh : g.hand.req = some r) :
    (∀ q tag r', (g.core.tab q).read tag = some r' → r'.id ≠ r.id) ∧
      ∀ r', r' ∈ g.core.retryList → r'.id ≠ r.id := by
  have hone := hids r.id
  unfold idCount reqCount coreReqs at hone
  rw [hh, hit_some, if_pos (by simp [keyOf])] at hone
  refine ⟨?_, ?_⟩
  · intro q tag r' hread hid
    have hpos := Slots.held_pos_of_read (p := (fun k : Key => k.id == r.id) ∘ keyOf) hread
      (by simp [keyOf, hid])
    cases q with
    | admin =>
        change 0 < Slots.held _ g.core.adminTab.inflight at hpos
        omega
    | io =>
        change 0 < Slots.held _ g.core.ioTab.inflight at hpos
        omega
  · intro r' hmem hid
    have hpos : 0 < g.core.retryList.countP ((fun k : Key => k.id == r.id) ∘ keyOf) :=
      List.countP_pos_iff.mpr ⟨r', hmem, by simp [keyOf, hid]⟩
    omega

/-- A request in a slot has a number. -/
theorem Safe.slot_lt {r : Request} {q : QueueId} {tag : Nat} (hs : Safe g)
    (hread : (g.core.tab q).read tag = some r) : r.id < g.core.allocs := by
  by_contra hle
  have hzero := hs.ids r.id
  rw [if_neg hle] at hzero
  unfold idCount reqCount coreReqs at hzero
  have hpos := Slots.held_pos_of_read (p := (fun k : Key => k.id == r.id) ∘ keyOf) hread
    (by simp [keyOf])
  cases q with
  | admin =>
      change 0 < Slots.held _ g.core.adminTab.inflight at hpos
      omega
  | io =>
      change 0 < Slots.held _ g.core.ioTab.inflight at hpos
      omega

theorem Safe.parked_lt {r : Request} (hs : Safe g) (hmem : r ∈ g.core.retryList) :
    r.id < g.core.allocs := by
  by_contra hle
  have hzero := hs.ids r.id
  rw [if_neg hle] at hzero
  unfold idCount reqCount coreReqs at hzero
  have hpos : 0 < g.core.retryList.countP ((fun k : Key => k.id == r.id) ∘ keyOf) :=
    List.countP_pos_iff.mpr ⟨r, hmem, by simp [keyOf]⟩
  omega

theorem Safe.hand_lt {r : Request} (hs : Safe g) (hh : g.hand.req = some r) :
    r.id < g.core.allocs := by
  by_contra hle
  have hzero := hs.ids r.id
  rw [if_neg hle] at hzero
  unfold idCount reqCount at hzero
  rw [hh, hit_some, if_pos (by simp [keyOf])] at hzero
  omega

/-- Only a live request with retries left is retried. -/
theorem retry_live {r : Request} (hdec : nvmeDecideDisposition r = .retry) :
    r.cancelled = false ∧ statusDnr r.status = false ∧ r.retries < nvmeMaxRetries := by
  unfold nvmeDecideDisposition at hdec
  split at hdec
  · cases hdec
  · split at hdec
    · cases hdec
    · rename_i hlive
      rw [not_or, not_or] at hlive
      exact ⟨Bool.eq_false_iff.mpr hlive.1, Bool.eq_false_iff.mpr hlive.2.1,
        Nat.lt_of_not_le hlive.2.2⟩

theorem decide_congr {r r' : Request} (hst : r'.status = r.status)
    (hret : r'.retries = r.retries) (hcan : r'.cancelled = r.cancelled) :
    nvmeDecideDisposition r' = nvmeDecideDisposition r := by
  unfold nvmeDecideDisposition
  rw [hst, hret, hcan]

end Writes

/-! ### What a move does to the log -/

section Moves

variable {c : Core} {h h' : Hand} {notes : List Effect} {r r' : Request}

/-- The requests stay where they are or go away, and the log says nothing new of them. -/
theorem WritesOk.still {l : List Effect} (hw : WritesOk g)
    (htrace : g'.core.trace = l ++ g.core.trace) (hes : ∀ e, e ∈ l → Idle e)
    (halloc : g.core.allocs ≤ g'.core.allocs)
    (hslots : ∀ q tag r, (g'.core.tab q).read tag = some r →
      ∃ q tag r₀, (g.core.tab q).read tag = some r₀ ∧ r.id = r₀.id ∧ r.retries = r₀.retries)
    (hparked : g'.core.retryList ⊆ g.core.retryList)
    (hhand : g'.hand.req = g.hand.req ∨ g'.hand.req = none) : WritesOk g' := by
  have hcount : ∀ n, g'.core.trace.countP (isSqe n) = g.core.trace.countP (isSqe n) := by
    intro n
    rw [htrace, countP_isSqe_idle hes]
  have hdoom : ∀ n, Doomed n g'.core.trace ↔ Doomed n g.core.trace := by
    intro n
    rw [htrace, doomed_idle hes]
  refine ⟨fun n => ?_, ?_, fun n hn e he => ?_, fun q tag r hread => ?_, fun r hmem => ?_,
    fun r hh => ?_⟩
  · rw [hcount]
    exact hw.few n
  · rw [htrace]
    exact never_append (fun e he n => (hes e he n).1) hw.never
  · rw [htrace] at he
    rcases List.mem_append.mp he with he | he
    · exact hes e he n
    · exact hw.fresh n (halloc.trans hn) e he
  · obtain ⟨q₀, tag₀, r₀, hread₀, hid, hret⟩ := hslots q tag r hread
    rw [hcount, hdoom, hid, hret]
    exact hw.slots q₀ tag₀ r₀ hread₀
  · rw [hcount, hdoom]
    exact hw.parked r (hparked hmem)
  · rcases hhand with hsame | hnone
    · rw [hcount, hdoom]
      exact hw.hand r (hsame ▸ hh)
    · cases hnone.symm.trans hh

theorem WritesOk.logged {l : List Effect} (hw : WritesOk g)
    (htrace : g'.core.trace = l ++ g.core.trace) (hes : ∀ e, e ∈ l → Idle e)
    (halloc : g.core.allocs ≤ g'.core.allocs) (htab : ∀ q, g'.core.tab q = g.core.tab q)
    (hparked : g'.core.retryList = g.core.retryList)
    (hhand : g'.hand.req = g.hand.req ∨ g'.hand.req = none) : WritesOk g' := by
  refine hw.still htrace hes halloc (fun q tag r hread => ?_) (hparked ▸ List.Subset.refl _) hhand
  rw [htab] at hread
  exact ⟨q, tag, r, hread, rfl, rfl⟩

/-- The command of a request is written and the request is put in a slot. -/
theorem WritesOk.written {q : QueueId} {cid slot n : Nat} {rest : List Nat} {owner : Option Nat}
    (hw : WritesOk ⟨c, h⟩) (hnotes : ∀ e, e ∈ notes → Idle e) (hn : c.allocs ≤ n)
    (hnew : r.id < n) (hid : r'.id = r.id) (hret : r'.retries = r.retries)
    (hslots : ∀ q tag r₀, (c.tab q).read tag = some r₀ → r₀.id ≠ r.id)
    (hparked : ∀ r₀, r₀ ∈ c.retryList → r₀.id ≠ r.id)
    (hhand : ∀ r₀, h'.req = some r₀ → h.req = some r₀ ∧ r₀.id ≠ r.id)
    (hdue : c.trace.countP (isSqe r.id) ≤ r.retries) (hmax : r.retries ≤ nvmeMaxRetries)
    (hlive : ¬Doomed r.id c.trace) :
    WritesOk ⟨sent c q (nvmeInflightClaim (popped (c.tab q) rest) cid r') n
      (.sqe slot r owner :: notes), h'⟩ := by
  have htrace : (sent c q (nvmeInflightClaim (popped (c.tab q) rest) cid r') n
      (.sqe slot r owner :: notes)).trace = .sqe slot r owner :: (notes ++ c.trace) := by
    simp [sent, stamp]
  have hother : ∀ m, m ≠ r.id →
      (Effect.sqe slot r owner :: (notes ++ c.trace)).countP (isSqe m) =
        c.trace.countP (isSqe m) := by
    intro m hne
    rw [List.countP_cons_of_neg (by simpa [isSqe] using hne.symm), countP_isSqe_idle hnotes]
  have hself : (Effect.sqe slot r owner :: (notes ++ c.trace)).countP (isSqe r.id) =
      c.trace.countP (isSqe r.id) + 1 := by
    rw [List.countP_cons_of_pos (by simp [isSqe]), countP_isSqe_idle hnotes]
  have hdoom : ∀ m, Doomed m (.sqe slot r owner :: (notes ++ c.trace)) ↔ Doomed m c.trace := by
    intro m
    rw [doomed_cons, doomed_idle hnotes]
    simp [dooms]
  refine ⟨fun m => ?_, ?_, fun m hm e he => ?_, fun q' tag r₀ hread => ?_, fun r₀ hmem => ?_,
    fun r₀ hh => ?_⟩
  · change List.countP _ (sent c q _ n _).trace ≤ _
    rw [htrace]
    by_cases hm : m = r.id
    · rw [hm, hself]
      exact Nat.succ_le_succ (hdue.trans hmax)
    · rw [hother m hm]
      exact hw.few m
  · change List.Pairwise _ (sent c q _ n _).trace
    rw [htrace]
    refine List.pairwise_cons.mpr ⟨fun older hold m hd => ?_,
      never_append (fun e he m => (hnotes e he m).1) hw.never⟩
    by_contra hsqe
    have hm : r.id = m := by simpa [isSqe] using hsqe
    exact hlive (hm ▸ (doomed_idle hnotes m).mp ⟨older, hold, hd⟩)
  · have hm' : n ≤ m := by simpa [sent, stamp] using hm
    change e ∈ (sent c q _ n _).trace at he
    rw [htrace] at he
    rcases List.mem_cons.mp he with rfl | he
    · refine ⟨?_, rfl⟩
      simpa [isSqe] using (by omega : r.id ≠ m)
    · rcases List.mem_append.mp he with he | he
      · exact hnotes e he m
      · exact hw.fresh m (hn.trans hm') e he
  · change List.countP _ (sent c q _ n _).trace ≤ _ ∧ _ ∧ ¬Doomed _ (sent c q _ n _).trace
    rw [htrace, hdoom]
    change ((sent c q _ n _).tab q').read tag = some r₀ at hread
    rw [sent_tab] at hread
    have hcases : r₀ = r' ∨ ∃ q tag, (c.tab q).read tag = some r₀ := by
      rcases read_setTab_cases hread with hread | hread
      · exact (read_claim_cases hread).imp_right fun h => ⟨q, tag, h⟩
      · exact .inr ⟨q', tag, hread⟩
    rcases hcases with rfl | ⟨q₀, tag₀, hread₀⟩
    · rw [hid, hret, hself]
      exact ⟨Nat.succ_le_succ hdue, hmax, hlive⟩
    · rw [hother _ (hslots q₀ tag₀ r₀ hread₀)]
      exact hw.slots q₀ tag₀ r₀ hread₀
  · have hmem₀ : r₀ ∈ c.retryList := by simpa [sent, stamp] using hmem
    change List.countP _ (sent c q _ n _).trace ≤ _ ∧ _ ∧ ¬Doomed _ (sent c q _ n _).trace
    rw [htrace, hdoom, hother _ (hparked r₀ hmem₀)]
    exact hw.parked r₀ hmem₀
  · obtain ⟨hh₀, hne⟩ := hhand r₀ hh
    change List.countP _ (sent c q _ n _).trace ≤ _ ∧ _ ∧
      (_ → ¬Doomed _ (sent c q _ n _).trace)
    rw [htrace, hdoom, hother _ hne]
    exact hw.hand r₀ hh₀

/-- A request that is allocated and submitted in one move. -/
theorem Safe.first_written {q : QueueId} {cid slot n : Nat} {rest : List Nat}
    {owner : Option Nat} (hs : Safe ⟨c, h⟩) (hnotes : ∀ e, e ∈ notes → Idle e)
    (hn : c.allocs < n) (hnew : r.id = c.allocs) (hid : r'.id = r.id)
    (hret : r'.retries = r.retries) (hzero : r.retries = 0) (hreq : h'.req = h.req) :
    WritesOk ⟨sent c q (nvmeInflightClaim (popped (c.tab q) rest) cid r') n
      (.sqe slot r owner :: notes), h'⟩ := by
  have hnever : ∀ e, e ∈ c.trace → isSqe r.id e = false ∧ dooms r.id e = false :=
    hs.writes.fresh r.id hnew.ge
  refine hs.writes.written hnotes hn.le (by omega) hid hret ?_ ?_ ?_ ?_ ?_ ?_
  · intro q tag r₀ hread
    have hlt : r₀.id < c.allocs := hs.slot_lt hread
    omega
  · intro r₀ hmem
    have hlt : r₀.id < c.allocs := hs.parked_lt hmem
    omega
  · intro r₀ hh
    have hh₀ : h.req = some r₀ := hreq ▸ hh
    have hlt : r₀.id < c.allocs := hs.hand_lt hh₀
    exact ⟨hh₀, by omega⟩
  · rw [List.countP_eq_zero.mpr fun e he => by rw [(hnever e he).1]; exact Bool.false_ne_true]
    exact Nat.zero_le _
  · rw [hzero]
    exact Nat.zero_le _
  · rintro ⟨e, he, hd⟩
    rw [(hnever e he).2] at hd
    cases hd

/-- A request is taken out of its slot into the hand, with one effect on the log. -/
theorem Safe.reaped {q : QueueId} {e : Effect} (hs : Safe ⟨c, h⟩)
    (hread : (c.tab q).read (cidTag r.cid) = some r)
    (hids : ∀ n, idCount n ⟨stamp (c.setTab q (nvmeInflightRelease (c.tab q) r.cid)) c.allocs
      [e], h'⟩ ≤ 1) (hh : h'.req = some r') (hid : r'.id = r.id) (hret : r'.retries = r.retries)
    (hsqe : ∀ n, isSqe n e = false) (hdoom : ∀ n, n ≠ r.id → dooms n e = false)
    (hlive : nvmeDecideDisposition r' = .retry → dooms r.id e = false) :
    WritesOk ⟨stamp (c.setTab q (nvmeInflightRelease (c.tab q) r.cid)) c.allocs [e], h'⟩ := by
  obtain ⟨halone, hparked⟩ := hand_alone hids hh
  have htrace : (stamp (c.setTab q (nvmeInflightRelease (c.tab q) r.cid)) c.allocs [e]).trace =
      e :: c.trace := by
    simp [stamp]
  have hcount : ∀ n, (e :: c.trace).countP (isSqe n) = c.trace.countP (isSqe n) :=
    fun n => List.countP_cons_of_neg (by rw [hsqe n]; exact Bool.false_ne_true)
  have hother : ∀ n, n ≠ r.id → (Doomed n (e :: c.trace) ↔ Doomed n c.trace) := by
    intro n hne
    rw [doomed_cons, hdoom n hne]
    simp
  have hold := hs.writes.slots q _ r hread
  have hlt : r.id < c.allocs := hs.slot_lt hread
  refine ⟨fun m => ?_, ?_, fun m hm e' he => ?_, fun q' tag r₀ hread₀ => ?_, fun r₀ hmem => ?_,
    fun r₀ hh₀ => ?_⟩
  · change List.countP _ (stamp _ _ _).trace ≤ _
    rw [htrace, hcount]
    exact hs.writes.few m
  · change List.Pairwise _ (stamp _ _ _).trace
    rw [htrace]
    exact List.pairwise_cons.mpr
      ⟨fun older _ m _ => hsqe m, hs.writes.never⟩
  · change e' ∈ (stamp _ _ _).trace at he
    rw [htrace] at he
    have hm' : c.allocs ≤ m := hm
    rcases List.mem_cons.mp he with rfl | he
    · exact ⟨hsqe m, hdoom m (by omega)⟩
    · exact hs.writes.fresh m hm' e' he
  · have hne : r₀.id ≠ r.id := hid ▸ halone q' tag r₀ hread₀
    change List.countP _ (stamp _ _ _).trace ≤ _ ∧ _ ∧ ¬Doomed _ (stamp _ _ _).trace
    rw [htrace, hcount, hother _ hne]
    change ((stamp _ _ _).tab q').read tag = some r₀ at hread₀
    rw [stamp_tab] at hread₀
    rcases read_setTab_cases hread₀ with hread₀ | hread₀
    · exact hs.writes.slots q tag r₀ (read_release_cases hread₀)
    · exact hs.writes.slots q' tag r₀ hread₀
  · have hne : r₀.id ≠ r.id := hid ▸ hparked r₀ hmem
    change List.countP _ (stamp _ _ _).trace ≤ _ ∧ _ ∧ ¬Doomed _ (stamp _ _ _).trace
    rw [htrace, hcount, hother _ hne]
    exact hs.writes.parked r₀ (by simpa [stamp] using hmem)
  · cases hh.symm.trans hh₀
    change List.countP _ (stamp _ _ _).trace ≤ _ ∧ _ ∧ (_ → ¬Doomed _ (stamp _ _ _).trace)
    rw [htrace, hcount, hid, hret, doomed_cons]
    refine ⟨hold.1, hold.2.1, fun hdec => ?_⟩
    rw [hlive hdec]
    rintro (hd | hd)
    · cases hd
    · exact hold.2.2 hd

/-- The request in hand is worked on. -/
theorem WritesOk.revised (hw : WritesOk ⟨c, h⟩) (hh : h.req = some r) (hkey : keyOf r' = keyOf r)
    (hnotes : ∀ e, e ∈ notes → Idle e) (hstat : Restated c r r') :
    WritesOk ⟨stamp c c.allocs notes, { h with req := some r' }⟩ := by
  obtain ⟨hdue, hmax, hlive⟩ := hw.hand r hh
  have hid : r'.id = r.id := congrArg Key.id hkey
  have hgone : WritesOk ⟨stamp c c.allocs notes, { h with req := none }⟩ :=
    hw.still rfl hnotes (Nat.le_refl _)
      (fun q tag r hread => ⟨q, tag, r, stamp_tab (c := c) _ _ ▸ hread, rfl, rfl⟩)
      (List.Subset.refl _) (.inr rfl)
  refine ⟨hgone.few, hgone.never, hgone.fresh, hgone.slots, hgone.parked, fun r₀ hh₀ => ?_⟩
  cases hh₀
  change (notes ++ c.trace).countP _ ≤ _ ∧ _ ∧ (_ → ¬Doomed _ (notes ++ c.trace))
  rw [countP_isSqe_idle hnotes, doomed_idle hnotes, hid]
  cases hstat with
  | same hst hret hcan =>
      rw [decide_congr hst hret hcan, hret]
      exact ⟨hdue, hmax, hlive⟩
  | retried hdec hst hret =>
      rw [hret]
      exact ⟨hdue.trans (Nat.le_succ _), (retry_live hdec).2.2, fun _ => hlive hdec⟩
  | noTag hfree hret hst hkept hlive' =>
      rw [hkept]
      exact ⟨hdue, hmax, fun _ => hlive'⟩

end Moves

section Keeps

theorem Move.keeps_writes (hs : Safe g) (hm : Move env P g g')
    (hids : ∀ n, idCount n g' ≤ 1) : WritesOk g' := by
  have hw := hs.writes
  have hsame : ∀ q tag r, (g.core.tab q).read tag = some r →
      ∃ q tag r₀, (g.core.tab q).read tag = some r₀ ∧ r.id = r₀.id ∧ r.retries = r₀.retries :=
    fun q tag r hread => ⟨q, tag, r, hread, rfl, rfl⟩
  cases hm with
  | @launchIo c h i cid rest n us notes r t hh hreq hctx hfree hn hnotes hkey hcid hret =>
      exact hs.first_written (fun e he => idle_quietFor (quietFor_of_quiet (n := 0) (hnotes e he)))
        hn (congrArg Key.id hkey) rfl rfl hret rfl
  | @launchSib c h x cid rest n us notes r ctx hh hreq hget hfree hn hnotes hkey hcid hret =>
      -- the context that is charged has no part in it
      have hwrote : WritesOk ⟨sent c .io (nvmeInflightClaim (popped (c.tab .io) rest) cid
          { r with submitUs := us }) n (.sqe (c.ring .io).sqTail r (some ctx.io) :: notes), h⟩ :=
        hs.first_written (fun e he => idle_quietFor (quietFor_of_quiet (n := 0) (hnotes e he))) hn
          (congrArg Key.id hkey) rfl rfl hret rfl
      exact ⟨hwrote.few, hwrote.never, hwrote.fresh,
        fun q tag r₀ hread => hwrote.slots q tag r₀ (by cases q <;> exact hread),
        hwrote.parked, hwrote.hand⟩
  | @launchAdmin c h cid rest n us notes r done waiter hfree hn hnotes hkey hcid hchain hfeat
      hname hret =>
      exact hs.first_written (fun e he => idle_quietFor (quietFor_of_quiet (n := 0) (hnotes e he)))
        hn (congrArg Key.id hkey) rfl rfl hret rfl
  | @relaunch c h r r₁ cid rest us hh hctx hr₁ hret hfree hring hgate hdue hlive =>
      have hid : r₁.id = r.id := by rw [hr₁]
      have hretries : r₁.retries = r.retries := by rw [hr₁]
      obtain ⟨halone, hparked⟩ := hand_alone (fun n => (hs.ids n).trans (by split <;> omega)) hh
      rw [← hid] at halone hparked hdue hlive
      rw [← hretries] at hdue
      exact hw.written (r := r₁) (fun e he => nomatch he) (Nat.le_refl _)
        (hid ▸ hs.hand_lt hh) rfl rfl halone hparked (fun r₀ h₀ => nomatch h₀) hdue
        (hretries ▸ (hw.hand r hh).2.1) hlive
  | @reapCqe c h q r st res hread hh hctx hst =>
      refine hs.reaped hread hids rfl rfl rfl (fun n => rfl) (fun n hne => ?_) fun hdec => ?_
      · simp [dooms, hne.symm]
      · have hdnr := (retry_live hdec).2.1
        simp only [dooms, hdnr, Bool.and_false]
  | @reapCancel c h q r hread hh hctx hcancel =>
      refine hs.reaped hread hids rfl rfl rfl (fun n => rfl) (fun n hne => ?_) fun hdec => ?_
      · simp [dooms, hne.symm]
      · cases (retry_live hdec).1
  | revise hh hkey hcmd hbuf hlen hfirst hnotes hstat =>
      exact hw.revised hh hkey (fun e he => idle_quietFor (hnotes e he)) hstat
  | @park c h r d hh hret hdue hlive =>
      refine ⟨hw.few, hw.never, hw.fresh, hw.slots, fun r₀ hmem => ?_, fun r₀ hh₀ => nomatch hh₀⟩
      rcases List.mem_append.mp hmem with hmem | hmem
      · exact hw.parked r₀ hmem
      · rw [List.mem_singleton.mp hmem]
        exact ⟨hdue, (hw.hand r hh).2.1, hlive⟩
  | @unpark c h r hresume hmem hh hctx hroom =>
      refine ⟨hw.few, hw.never, hw.fresh, hw.slots,
        fun r₀ hr₀ => hw.parked r₀ (List.mem_of_mem_eraseP hr₀), fun r₀ hh₀ => ?_⟩
      cases hh₀
      obtain ⟨hdue, hmax, hlive⟩ := hw.parked r hmem
      exact ⟨hdue.trans (Nat.le_succ _), hmax, fun _ => hlive⟩
  | @fizzle c h q cid rest n notes hfree hn hnotes =>
      refine hw.still (l := .reqFree c.allocs :: notes) (by simp [stamp])
        (idle_cons (idle_reqFree _) fun e he => idle_quietFor (hnotes e he)) hn.le
        (fun q' tag r hread => ?_) (by simp [stamp]) (.inl rfl)
      rw [stamp_tab] at hread
      rcases read_setTab_cases hread with hread | hread
      · exact hsame q tag r hread
      · exact hsame q' tag r hread
  | @lose c h r cid rest notes hlose hh hfree hnotes =>
      refine hw.still (l := .reqFree r.id :: notes) (by simp [stamp])
        (idle_cons (idle_reqFree _) fun e he => idle_quietFor (hnotes e he)) (Nat.le_refl _)
        (fun q tag r₀ hread => ?_) (by simp [stamp]) (.inr rfl)
      rw [stamp_tab] at hread
      rcases read_setTab_cases hread with hread | hread
      · exact hsame r.q tag r₀ hread
      · exact hsame q tag r₀ hread
  | @touch c h q tag us =>
      refine hw.still (l := []) (by simp) (fun e he => nomatch he) (by simp)
        (fun q' tag' r hread => ?_) (by simp) (.inl rfl)
      rcases read_setTab_cases hread with hread | hread
      · rw [read_edit] at hread
        split at hread
        · obtain ⟨r₀, hread₀, rfl⟩ := Option.map_eq_some_iff.mp hread
          exact ⟨q, _, r₀, hread₀, rfl, rfl⟩
        · exact hsame q tag' r hread
      · exact hsame q' tag' r hread
  | @teardown c h q notes hstir hlose hnotes hidle =>
      refine hw.still (l := .teardown (c.tab q).occupants :: notes) (by simp [stamp])
        (idle_cons (fun n => ⟨rfl, rfl⟩) fun e he => idle_halting (hnotes e he).2) (by simp [stamp])
        (fun q' tag r hread => ?_) (by simp [stamp]) (.inl rfl)
      rw [setRing_tab, stamp_tab] at hread
      rcases read_setTab_cases hread with hread | hread
      · cases hread
      · exact hsame q' tag r hread
  | @setup c h q hstir hvac hio hidle =>
      refine hw.still (l := [.queueSetup q]) (by simp [stamp])
        (idle_cons (fun n => ⟨rfl, rfl⟩) fun e he => nomatch he) (by simp [stamp])
        (fun q' tag r hread => ?_) (by simp [stamp]) (.inl rfl)
      rw [setRing_tab, stamp_tab] at hread
      rcases read_setTab_cases hread with hread | hread
      · cases (read_fresh _ _ tag).symm.trans hread
      · exact hsame q' tag r hread
  | phase hstir hp =>
      cases hp with
      | aenFw | resetBegin | resetLive | die | fwLive =>
          exact hw.logged rfl (by simp [Idle, isSqe, dooms]) (Nat.le_refl _)
            (fun q => by cases q <;> rfl) rfl (.inl rfl)
      | fwBegin | fwTimeout | block | quiesce | unquiesce | freeze | setCap =>
          exact hw.logged (l := []) rfl (fun e he => nomatch he) (Nat.le_refl _)
            (fun q => by cases q <;> rfl) rfl (.inl rfl)
  | note e hq =>
      exact hw.logged rfl (idle_cons (idle_quietFor (quietFor_of_quiet (n := 0) hq))
        fun e he => nomatch he) (Nat.le_refl _) (fun q => stamp_tab _ _) rfl (.inl rfl)
  | @finish c h x ctx notes sibs hh hget hidle hstall hdone hsibs hnotes =>
      refine hw.logged rfl (fun e he => ?_) (Nat.le_refl _) (fun q => by cases q <;> rfl) rfl
        (.inl rfl)
      simp only [List.mem_cons, List.mem_append, List.not_mem_nil, or_false] at he
      rcases he with rfl | rfl | he | rfl
      · exact fun n => ⟨rfl, rfl⟩
      · exact fun n => ⟨rfl, rfl⟩
      · exact idle_quietFor (quietFor_of_quiet (n := 0) (hnotes e he))
      · exact fun n => ⟨rfl, rfl⟩
  | translated | burn | bell | skip | refuse | replyHand | discardHand | fizzleBare | freeCtx
  | collect =>
      exact hw.logged rfl (by simp [Idle, isSqe, dooms]) (by simp [stamp])
        (fun q => by cases q <;> rfl) rfl (.inl rfl)
  | endReply | endFree | sibDone =>
      exact hw.logged rfl (by simp [Idle, isSqe, dooms]) (Nat.le_refl _)
        (fun q => by cases q <;> rfl) rfl (.inr rfl)
  | @publish c h q head phase hpub hhead =>
      exact hw.logged (l := [.cqDoorbell q head]) (by simp [stamp])
        (by simp [Idle, isSqe, dooms]) (by simp [stamp])
        (fun q' => (setRing_tab _ _ _ _).trans (stamp_tab _ _)) (by simp [stamp]) (.inl rfl)
  | endWait | endDrop =>
      exact hw.logged (l := []) rfl (fun e he => nomatch he) (Nat.le_refl _)
        (fun q => by cases q <;> rfl) rfl (.inr rfl)
  | accept | limits | openBatch | closeBatch | takeMsg | takePending | stash | allocCtx | ctxError
  | stall | unstall | dropCtx =>
      exact hw.logged (l := []) rfl (fun e he => nomatch he) (by simp)
        (fun q => by cases q <;> rfl) rfl (.inl rfl)

end Keeps

end Ownership
end NvmeDriver
