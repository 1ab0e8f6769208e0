/-
  The idempotency keys of imported movements.

  * `walletImportKey_inj`, `ledgerImportKey_inj`: what a key is the key of.
-/
import Sakura.Legacy.Wallets
import Sakura.Text

namespace Sakura

/-! ## Keys -/

variable {a a' : UUID} {c c' : String} {b b' i i' : Int64}

/-- A text of an identifier, any text and an integer, with a colon before the last. -/
theorem parts_inj (p q m : String) (hm : ∃ ms, m.toList = ms ++ [':'])
    (h : p ++ a.text ++ q ++ c ++ m ++ toString b = p ++ a'.text ++ q ++ c' ++ m ++ toString b') :
    a = a' ∧ c = c' ∧ b = b' := by
  obtain ⟨ms, hm⟩ := hm
  have hl := congrArg String.toList h
  simp only [String.toList_append, List.append_assoc, List.append_cancel_left_eq, hm] at hl
  obtain ⟨hid, hrest⟩ := List.append_inj hl
    (by rw [String.length_toList, String.length_toList, a.valid, a'.valid])
  have hcut : ∀ (c : String) (b : Int64), c.toList ++ (ms ++ ([':'] ++ (toString b).toList)) =
      (c.toList ++ ms) ++ ':' :: (toString b).toList := fun c b => by
    rw [List.append_assoc, List.singleton_append]
  rw [List.append_cancel_left_eq, hcut, hcut] at hrest
  obtain ⟨hc, hb⟩ := append_cons_inj (colon_notMem_toString b) (colon_notMem_toString b') hrest
  exact ⟨UUID.text_inj.1 (String.toList_inj.1 hid),
    String.toList_inj.1 (List.append_cancel_right hc), toString_inj hb⟩

theorem walletImportKey_inj (h : walletImportKey a c b = walletImportKey a' c' b') :
    a = a' ∧ c = c' ∧ b = b' :=
  parts_inj "legacy-wallet:" ":" ":balance:" ⟨":balance".toList, rfl⟩ h

theorem prefix_inj (p : String) (h : p ++ toString i = p ++ toString i') : i = i' := by
  have hl := congrArg String.toList h
  rw [String.toList_append, String.toList_append, List.append_cancel_left_eq] at hl
  exact toString_inj hl

theorem ledgerImportKey_inj (h : ledgerImportKey i = ledgerImportKey i') : i = i' :=
  prefix_inj "legacy-ledger:account_ledger_entries:" h

/-- Texts that differ within their first `n` letters. -/
theorem append_ne (n : Nat) {p q s t : String} (hp : (p.toList.take n).length = n)
    (hq : (q.toList.take n).length = n) (h : p.toList.take n ≠ q.toList.take n) :
    p ++ s ≠ q ++ t := by
  intro he
  have hl := congrArg (List.take n ∘ String.toList) he
  simp only [Function.comp_apply, String.toList_append, List.take_append, List.length_take] at hl hp hq
  rw [Nat.sub_eq_zero_of_le (by omega), Nat.sub_eq_zero_of_le (by omega), List.take_zero,
    List.take_zero, List.append_nil, List.append_nil] at hl
  exact h hl

theorem ledgerImportKey_ne_walletImportKey : ledgerImportKey i ≠ walletImportKey a c b := by
  unfold ledgerImportKey walletImportKey
  simp only [String.append_assoc]
  exact append_ne 8 rfl rfl (by decide)

end Sakura
