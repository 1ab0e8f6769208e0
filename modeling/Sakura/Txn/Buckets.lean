/-
  Times that are kept apart by buckets.

  A time is recorded unless one of its bucket is: there is at most one in a bucket, which says little about
  the time between two that follow each other.

  * `offer`: a time is recorded;
  * `Apart`: the recorded times are a gap apart;
  * `Timely`: a time is in the bucket of a recorded one, or a gap after it;
  * `apart_offers_iff`: what times, offered in their order, are recorded apart.
-/
import Mathlib.Algebra.Order.Group.Abs
import Mathlib.Data.List.Basic
import Mathlib.Data.List.Pairwise
import Mathlib.Order.Monotone.Basic

namespace Txn

variable {τ β : Type} [DecidableEq β]

/-- A time is recorded, unless one of its bucket is. -/
def offer (bucket : τ → β) (ts : List τ) (t : τ) : List τ :=
  if ts.any (fun s => bucket s = bucket t) then ts else ts ++ [t]

/-- A time is in the bucket of a recorded one, or a gap after it. -/
def Timely [Add τ] [LE τ] (bucket : τ → β) (gap : τ) (ts : List τ) (t : τ) : Prop :=
  ∀ s ∈ ts, bucket s = bucket t ∨ s + gap ≤ t

theorem offer_cases (bucket : τ → β) (ts : List τ) (t : τ) :
    ((∃ s ∈ ts, bucket s = bucket t) ∧ offer bucket ts t = ts) ∨
    ((∀ s ∈ ts, bucket s ≠ bucket t) ∧ offer bucket ts t = ts ++ [t]) := by
  by_cases h : ∃ s ∈ ts, bucket s = bucket t
  · exact .inl ⟨h, if_pos (List.any_eq_true.2 (by simpa using h))⟩
  · refine .inr ⟨fun s hs e => h ⟨s, hs, e⟩, if_neg fun e => h ?_⟩
    simpa using List.any_eq_true.1 e

theorem mem_offer {bucket : τ → β} {ts : List τ} {s t : τ} (h : s ∈ offer bucket ts t) :
    s ∈ ts ∨ s = t := by
  rcases offer_cases bucket ts t with ⟨-, e⟩ | ⟨-, e⟩ <;> rw [e] at h
  · exact .inl h
  · exact (List.mem_append.1 h).imp_right List.mem_singleton.1

/-- Offered again, a time changes nothing. -/
theorem offer_offer (bucket : τ → β) (ts : List τ) (t : τ) :
    offer bucket (offer bucket ts t) t = offer bucket ts t := by
  refine if_pos (List.any_eq_true.2 ?_)
  rcases offer_cases bucket ts t with ⟨⟨s, hs, hb⟩, e⟩ | ⟨-, e⟩ <;> rw [e]
  · exact ⟨s, hs, by simpa using hb⟩
  · exact ⟨t, List.mem_append_right _ (List.mem_singleton.2 rfl), by simp⟩

variable [AddCommGroup τ] [LinearOrder τ] [IsOrderedAddMonoid τ] [PartialOrder β]
  {bucket : τ → β} {gap t : τ} {ts : List τ}

/-- The recorded times are a gap apart. -/
def Apart (gap : τ) (ts : List τ) : Prop := ts.Pairwise fun s t => gap ≤ |t - s|

theorem Apart.of_offer (h : Apart gap (offer bucket ts t)) : Apart gap ts := by
  rcases offer_cases bucket ts t with ⟨-, e⟩ | ⟨-, e⟩ <;> rw [e] at h
  · exact h
  · exact (List.pairwise_append.1 h).1

/-- **A timely time is recorded apart.** -/
theorem Apart.offer (h : Apart gap ts) (ht : Timely bucket gap ts t) :
    Apart gap (offer bucket ts t) := by
  rcases offer_cases bucket ts t with ⟨-, e⟩ | ⟨hne, e⟩ <;> rw [e]
  · exact h
  · refine List.pairwise_append.2 ⟨h, List.pairwise_singleton _ _, fun s hs r hr => ?_⟩
    obtain rfl := List.mem_singleton.1 hr
    have hlater : s + gap ≤ r := (ht s hs).resolve_left (hne s hs)
    exact (le_sub_iff_add_le'.2 hlater).trans (le_abs_self _)

/-- **What is recorded apart was timely**, if no recorded time is later and no later time has an earlier
bucket. -/
theorem Apart.timely (hbucket : Monotone bucket) (hle : ∀ s ∈ ts, s ≤ t)
    (h : Apart gap (Txn.offer bucket ts t)) : Timely bucket gap ts t := by
  intro s hs
  by_contra hnot
  obtain ⟨hsb, hlate⟩ := not_or.1 hnot
  have hnear : t - s < gap := sub_lt_iff_lt_add'.2 (not_le.1 hlate)
  rcases offer_cases bucket ts t with ⟨⟨r, hr, hrb⟩, e⟩ | ⟨-, e⟩ <;> rw [e] at h
  · -- a time of the bucket is recorded: it is after the near one, whose bucket is another
    have hsr : s ≤ r := by
      refine not_lt.1 fun hrs => hsb (le_antisymm (hbucket (hle s hs)) ?_)
      rw [← hrb]
      exact hbucket hrs.le
    have hsymm : Std.Symm fun s t : τ => gap ≤ |t - s| := ⟨fun a b hab => by rwa [abs_sub_comm]⟩
    have hgap := h.forall hs hr (fun e => hsb (e ▸ hrb))
    rw [abs_of_nonneg (sub_nonneg.2 hsr)] at hgap
    exact absurd hnear (not_lt.2 (hgap.trans (sub_le_sub_right (hle r hr) s)))
  · have hgap := (List.pairwise_append.1 h).2.2 s hs t (List.mem_singleton.2 rfl)
    rw [abs_of_nonneg (sub_nonneg.2 (hle s hs))] at hgap
    exact absurd hnear (not_lt.2 hgap)

/-- **Times that are offered in their order are recorded apart if and only if each of them is timely when
it is offered.** -/
theorem apart_offers_iff (hbucket : Monotone bucket) : ∀ {ls ts : List τ},
    ls.Pairwise (· ≤ ·) → (∀ s ∈ ts, ∀ t ∈ ls, s ≤ t) →
    (Apart gap (ls.foldl (Txn.offer bucket) ts) ↔ Apart gap ts ∧
      ∀ pre t post, ls = pre ++ t :: post → Timely bucket gap (pre.foldl (Txn.offer bucket) ts) t)
  | [], ts, _, _ => by simp
  | t :: ls, ts, hsorted, hle => by
    obtain ⟨hfirst, hsorted⟩ := List.pairwise_cons.1 hsorted
    have hle' : ∀ s ∈ Txn.offer bucket ts t, ∀ r ∈ ls, s ≤ r := fun s hs r hr =>
      (mem_offer hs).elim (fun h => hle s h r (List.mem_cons_of_mem _ hr)) fun e => e ▸ hfirst r hr
    have hnow : ∀ s ∈ ts, s ≤ t := fun s hs => hle s hs t List.mem_cons_self
    rw [List.foldl_cons, apart_offers_iff hbucket hsorted hle']
    constructor
    · rintro ⟨hap, hrest⟩
      refine ⟨hap.of_offer, fun pre r post e => ?_⟩
      rcases List.cons_eq_append_iff.1 e with ⟨rfl, e⟩ | ⟨pre', rfl, e⟩
      · obtain rfl : t = r := (List.cons.inj e).1
        exact hap.timely hbucket hnow
      · exact hrest pre' r post (List.cons.inj e).2
    · rintro ⟨hap, hall⟩
      exact ⟨hap.offer (hall [] t ls rfl), fun pre r post e =>
        hall (t :: pre) r post (by rw [e]; rfl)⟩

end Txn
