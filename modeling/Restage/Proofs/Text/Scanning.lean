import Mathlib.Data.List.Infix
import Restage.Text.Scan

/-!
# Scans and exchanges

A scan goes over a text, and where its reader succeeds it goes on behind what was read.  The first
part is about readers that do not look back: such a scan can be followed piece by piece.

The second part is about exchanges with any reader.  `Exchanges` is the run of an exchange as a
relation, and `Found` says that the reader succeeds at a place of the text, visited or not.  What an
exchange does to the text follows from what the reader does at these places: if nothing is changed
there the text stays (`Exchanges.eq_self`), occurrences of a character grow with what is written
(`Exchanges.count_le`, `Exchanges.count_lt`), and behind the last exchange the text is as it was
(`Exchanges.exists_last`).
-/

namespace Restage.Text

open List

variable (b : Text) {r rest : Text}

/-! ## Readers that do not look back -/

variable {c : Char} {a : Text}

section Scan

variable {α : Type} {reader : Text → Option (α × Text)}

lemma scanFrom_eq_scan (reader : Text → Option (α × Text)) (before : Option Char) (n : Nat)
    (t : Text) : scanFrom (fun _ => reader) before n t = scan reader (t.drop n) := by
  induction t generalizing before n with
  | nil => rw [drop_nil, scan, scanFrom, scanFrom]
  | cons c r ih =>
    cases n with
    | zero => rw [drop_zero, scan, scanFrom, scanFrom]
    | succ n => exact ih (some c) n

lemma scan_cons_of_none (h : reader (c :: r) = none) :
    scan reader (c :: r) = .inl c :: scan reader r := by
  rw [scan, scanFrom, h]
  rw [scanFrom_eq_scan, drop_zero]

lemma scan_append_of_some {x : α} (ha : a ≠ []) (h : reader (a ++ rest) = some (x, rest)) :
    scan reader (a ++ rest) = .inr x :: scan reader rest := by
  obtain ⟨c, a, rfl⟩ := exists_cons_of_ne_nil ha
  have hlength : (a ++ rest).length - rest.length = a.length := by simp
  rw [cons_append] at h ⊢
  rw [scan, scanFrom, h]
  dsimp only
  rw [scanFrom_eq_scan, hlength, drop_left]

lemma scan_append_of_none (h : ∀ c s, c :: s <:+ a → reader (c :: s ++ b) = none) :
    scan reader (a ++ b) = a.map .inl ++ scan reader b := by
  induction a with
  | nil => rfl
  | cons c a ih =>
    have hnone : reader (c :: (a ++ b)) = none := h c a suffix_rfl
    rw [cons_append, scan_cons_of_none hnone, ih fun d s hs => h d s (hs.trans (suffix_cons c a))]
    rfl

end Scan

section Exchange

variable {reader : Text → Option (Text × Text)}

lemma exchangeAll_eq_scanFrom (reader : Option Char → Text → Option (Text × Text)) (t : Text) :
    exchangeAll reader t = (scanFrom reader none 0 t).flatMap (Sum.elim (fun c => [c]) id) := by
  rw [exchangeAll]
  congr 1
  funext piece
  cases piece <;> rfl

lemma exchangeAll_eq_scan (reader : Text → Option (Text × Text)) (t : Text) :
    exchangeAll (fun _ => reader) t = (scan reader t).flatMap (Sum.elim (fun c => [c]) id) :=
  exchangeAll_eq_scanFrom (fun _ => reader) t

lemma exchangeAll_cons_of_none (h : reader (c :: r) = none) :
    exchangeAll (fun _ => reader) (c :: r) = c :: exchangeAll (fun _ => reader) r := by
  rw [exchangeAll_eq_scan, exchangeAll_eq_scan, scan_cons_of_none h]
  rfl

lemma exchangeAll_append_of_some {new : Text} (ha : a ≠ [])
    (h : reader (a ++ rest) = some (new, rest)) :
    exchangeAll (fun _ => reader) (a ++ rest) = new ++ exchangeAll (fun _ => reader) rest := by
  rw [exchangeAll_eq_scan, exchangeAll_eq_scan, scan_append_of_some ha h]
  rfl

lemma exchangeAll_append_of_none (h : ∀ c s, c :: s <:+ a → reader (c :: s ++ b) = none) :
    exchangeAll (fun _ => reader) (a ++ b) = a ++ exchangeAll (fun _ => reader) b := by
  have hkept : (a.map Sum.inl).flatMap (Sum.elim (fun c => [c]) id) = a := by
    rw [flatMap_map]
    exact flatMap_singleton' a
  rw [exchangeAll_eq_scan, exchangeAll_eq_scan, scan_append_of_none b h, flatMap_append, hkept]

end Exchange

/-! ## Exchanges as a relation -/

/-- The run of an exchange, given the character before the text. -/
inductive Exchanges (reader : Option Char → Text → Option (Text × Text)) :
    Option Char → Text → Text → Prop
  | nil {before : Option Char} : Exchanges reader before [] []
  | keep {before : Option Char} {c : Char} {r out : Text} : reader before (c :: r) = none →
      Exchanges reader (some c) r out → Exchanges reader before (c :: r) (c :: out)
  | swap {before : Option Char} {old new rest out : Text} : old ≠ [] →
      reader before (old ++ rest) = some (new, rest) → Exchanges reader old.getLast? rest out →
      Exchanges reader before (old ++ rest) (new ++ out)

/-- A reader that reads a part of the text at least, wherever in a text it succeeds. -/
def Advances (reader : Option Char → Text → Option (Text × Text)) (t : Text) : Prop :=
  ∀ before s new rest, s <:+ t → reader before s = some (new, rest) → ∃ old, old ≠ [] ∧ s = old ++ rest

/-- The reader succeeds behind `p`, on `old`, and gives `new`. -/
structure Found (reader : Option Char → Text → Option (Text × Text)) (before : Option Char)
    (t p old rest new : Text) : Prop where
  eq : t = p ++ (old ++ rest)
  ne_nil : old ≠ []
  read : reader (p.getLast?.or before) (old ++ rest) = some (new, rest)

section Runs

variable {reader : Option Char → Text → Option (Text × Text)} {before : Option Char} {t out : Text}

lemma scanFrom_skip {α : Type} (reader : Option Char → Text → Option (α × Text)) (before : Option Char)
    (a rest : Text) :
    scanFrom reader before a.length (a ++ rest) = scanFrom reader (a.getLast?.or before) 0 rest := by
  induction a generalizing before with
  | nil => rfl
  | cons c a ih =>
    have hlast : (c :: a).getLast?.or before = a.getLast?.or (some c) := by
      rw [getLast?_cons]
      cases a.getLast? <;> rfl
    rw [hlast]
    exact ih (some c)

lemma exchanges_exchangeAll (h : Advances reader t) : Exchanges reader none t (exchangeAll reader t) := by
  have hruns : ∀ (n : Nat) (before : Option Char) (t : Text), t.length ≤ n → Advances reader t →
      Exchanges reader before t ((scanFrom reader before 0 t).flatMap (Sum.elim (fun c => [c]) id)) := by
    intro n
    induction n with
    | zero =>
      intro before t ht _
      rw [eq_nil_of_length_eq_zero (Nat.le_zero.1 ht)]
      exact .nil
    | succ n ih =>
      intro before t ht hadvances
      have hinner : ∀ s, s <:+ t → Advances reader s := fun s hs before u new rest hu =>
        hadvances before u new rest (hu.trans hs)
      cases t with
      | nil => exact .nil
      | cons c r =>
        cases hread : reader before (c :: r) with
        | none =>
          rw [scanFrom, hread]
          exact .keep hread (ih (some c) r (Nat.le_of_succ_le_succ ht) (hinner r (suffix_cons c r)))
        | some found =>
          obtain ⟨new, rest⟩ := found
          obtain ⟨_ | ⟨d, old⟩, hold, heq⟩ := hadvances _ _ _ _ suffix_rfl hread
          · exact absurd rfl hold
          rw [cons_append] at heq
          obtain ⟨rfl, rfl⟩ := cons.inj heq
          have hlength : (old ++ rest).length - rest.length = old.length := by simp
          have hlast : old.getLast?.or (some c) = (c :: old).getLast? := by
            rw [getLast?_cons]
            cases old.getLast? <;> rfl
          have hrest : rest.length ≤ n := by
            simp only [length_cons, length_append] at ht
            omega
          rw [scanFrom, hread]
          dsimp only
          rw [hlength, scanFrom_skip, hlast]
          exact .swap hold hread (ih _ rest hrest (hinner rest (suffix_append (c :: old) rest)))
  rw [exchangeAll_eq_scanFrom]
  exact hruns t.length none t (le_refl _) h

/-! ## What is found, and where -/

variable {p old rest new : Text}

lemma found_append_iff (ha : a ≠ []) :
    Found reader before (a ++ t) (a ++ p) old rest new ↔ Found reader a.getLast? t p old rest new := by
  have hlast : (a ++ p).getLast?.or before = p.getLast?.or a.getLast? := by
    rw [getLast?_append, getLast?_eq_some_getLast ha]
    cases p.getLast? <;> rfl
  constructor
  · intro h
    have heq := h.eq
    rw [append_assoc] at heq
    exact ⟨append_cancel_left heq, h.ne_nil, hlast ▸ h.read⟩
  · intro h
    exact ⟨by rw [h.eq, append_assoc], h.ne_nil, hlast ▸ h.read⟩

lemma found_cons_iff :
    Found reader before (c :: t) (c :: p) old rest new ↔ Found reader (some c) t p old rest new :=
  found_append_iff (a := [c]) (cons_ne_nil c [])

lemma not_found_nil : ¬Found reader before [] p old rest new := by
  intro h
  obtain ⟨-, hnil⟩ := append_eq_nil_iff.1 h.eq.symm
  exact h.ne_nil (append_eq_nil_iff.1 hnil).1

lemma Found.exists_cons (h : Found reader before (c :: t) p old rest new)
    (hnone : reader before (c :: t) = none) : ∃ q, p = c :: q ∧ Found reader (some c) t q old rest new := by
  cases p with
  | nil =>
    have hread := h.read
    rw [← nil_append (old ++ rest), ← h.eq] at hread
    cases hnone.symm.trans hread
  | cons d q =>
    obtain ⟨rfl, -⟩ := cons.inj h.eq
    exact ⟨q, rfl, found_cons_iff.1 h⟩

lemma Found.unique {old' rest' new' : Text} (h : Found reader before t p old rest new)
    (h' : Found reader before t p old' rest' new') : old = old' ∧ rest = rest' ∧ new = new' := by
  have heq : old ++ rest = old' ++ rest' := append_cancel_left (h.eq.symm.trans h'.eq)
  have hread := h.read
  rw [heq, h'.read] at hread
  obtain ⟨rfl, rfl⟩ := Prod.mk.inj (Option.some.inj hread)
  exact ⟨append_cancel_right heq, rfl, rfl⟩

variable (h : Exchanges reader before t out)
include h

/-- **An exchange that writes what it reads** leaves the text as it is. -/
lemma Exchanges.eq_self (hsame : ∀ p old rest new, Found reader before t p old rest new → new = old) :
    out = t := by
  induction h with
  | nil => rfl
  | keep hread hrest ih => rw [ih fun p old rest new hfound => hsame _ _ _ _ (found_cons_iff.2 hfound)]
  | @swap before first new rest out hfirst hread hrest ih =>
    rw [hsame [] first rest new ⟨rfl, hfirst, hread⟩,
      ih fun p old rest new hfound => hsame _ _ _ _ ((found_append_iff hfirst).2 hfound)]

/-- **Characters are not lost** if none is lost where the reader succeeds. -/
lemma Exchanges.count_le
    (hle : ∀ p old rest new, Found reader before t p old rest new → old.count c ≤ new.count c) :
    t.count c ≤ out.count c := by
  induction h with
  | nil => exact le_refl _
  | @keep before d r out hread hrest ih =>
    have hthere := ih fun p old rest new hfound => hle _ _ _ _ (found_cons_iff.2 hfound)
    rw [count_cons, count_cons]
    omega
  | @swap before first new rest out hfirst hread hrest ih =>
    have hhere := hle [] first rest new ⟨rfl, hfirst, hread⟩
    have hthere := ih fun p old rest new hfound => hle _ _ _ _ ((found_append_iff hfirst).2 hfound)
    rw [count_append, count_append]
    omega

/-- **Characters are gained** if some are gained where the reader succeeds.  The exchange may pass
that place by, on the way over something that it reads; then that has to gain some too. -/
lemma Exchanges.count_lt
    (hle : ∀ p old rest new, Found reader before t p old rest new → old.count c ≤ new.count c)
    (hover : ∀ p old rest new q old' rest' new', Found reader before t p old rest new → Found reader before t (p ++ q) old' rest' new' → q ≠ [] → q.length < old.length → old'.count c < new'.count c → old.count c < new.count c)
    (hfound : Found reader before t p old rest new) (hlt : old.count c < new.count c) :
    t.count c < out.count c := by
  induction h generalizing p with
  | nil => exact absurd hfound not_found_nil
  | @keep before d r out hread hrest ih =>
    obtain ⟨q, rfl, hq⟩ := hfound.exists_cons hread
    have hthere := ih (fun p old rest new hfound => hle _ _ _ _ (found_cons_iff.2 hfound))
      (fun p old rest new q old' rest' new' hp hq =>
        hover (d :: p) old rest new q old' rest' new' (found_cons_iff.2 hp) (found_cons_iff.2 hq)) hq
    rw [count_cons, count_cons]
    omega
  | @swap before first written behind out hfirst hread hrest ih =>
    have hhere : Found reader before (first ++ behind) [] first behind written := ⟨rfl, hfirst, hread⟩
    have hfirstLe := hle _ _ _ _ hhere
    have hle' : ∀ p old rest new, Found reader first.getLast? behind p old rest new →
        old.count c ≤ new.count c := fun p old rest new hfound =>
      hle _ _ _ _ ((found_append_iff hfirst).2 hfound)
    rw [count_append, count_append]
    by_cases hlength : first.length ≤ p.length
    · obtain ⟨q, rfl⟩ : first <+: p := prefix_of_prefix_length_le (prefix_append first behind)
        ⟨_, hfound.eq.symm⟩ hlength
      have hthere := ih hle'
        (fun p old rest new q old' rest' new' hp hq =>
          hover (first ++ p) old rest new q old' rest' new' ((found_append_iff hfirst).2 hp)
            (by rw [append_assoc]; exact (found_append_iff hfirst).2 hq))
        ((found_append_iff hfirst).1 hfound)
      omega
    · have hgain : first.count c < written.count c := by
        cases p with
        | nil =>
          obtain ⟨rfl, rfl, rfl⟩ := hfound.unique hhere
          exact hlt
        | cons e p =>
          exact hover [] first behind written (e :: p) old rest new hhere hfound (by simp)
            (Nat.lt_of_not_le hlength) hlt
      have hbehind := hrest.count_le hle'
      omega

/-- **Behind the last exchange** the text is as it was. -/
lemma Exchanges.exists_last (hfound : Found reader before t p old rest new) :
    ∃ a b before' old' new' tail, t = a ++ (old' ++ tail) ∧ out = b ++ (new' ++ tail) ∧
      reader before' (old' ++ tail) = some (new', tail) := by
  induction h generalizing p old rest new with
  | nil => exact absurd hfound not_found_nil
  | @keep before d r out hread hrest ih =>
    obtain ⟨q, rfl, hq⟩ := hfound.exists_cons hread
    obtain ⟨a, b, before', old', new', tail, rfl, rfl, hlast⟩ := ih hq
    exact ⟨d :: a, d :: b, before', old', new', tail, rfl, rfl, hlast⟩
  | @swap before first written behind out hfirst hread hrest ih =>
    by_cases hmore : ∃ p old rest new, Found reader first.getLast? behind p old rest new
    · obtain ⟨p, old, rest, new, hfound⟩ := hmore
      obtain ⟨a, b, before', old', new', tail, rfl, rfl, hlast⟩ := ih hfound
      exact ⟨first ++ a, written ++ b, before', old', new', tail, by simp, by simp, hlast⟩
    · have hsame : out = behind := hrest.eq_self fun p old rest new hfound =>
        absurd ⟨p, old, rest, new, hfound⟩ hmore
      rw [hsame]
      exact ⟨[], [], before, first, written, behind, rfl, rfl, hread⟩

end Runs

end Restage.Text
