import ShelterServer.Foundations.ReflectedSum

/-!
# Ledgers of counters clamped at zero

A ledger holds one total for each account.  A posting names an amount for
some of the accounts; each named account receives its amount and is clamped at
zero, and the others keep their totals.  Replaying a list of postings from the
empty ledger is, account by account, a clamped sum of the named amounts.
-/

namespace ShelterServer.Foundations

universe u v

variable {Account : Type u} {α : Type v} [AddCommGroup α] [LinearOrder α]

/-- Apply one posting. -/
def post (ledger : Account → α) (posting : Account → Option α) : Account → α :=
  fun account =>
    match posting account with
    | none => ledger account
    | some amount => clampAdd (ledger account) amount

/-- The ledger after a list of postings to the empty ledger. -/
def replay (postings : List (Account → Option α)) : Account → α :=
  postings.foldl post fun _ => 0

@[simp] theorem replay_nil :
    replay ([] : List (Account → Option α)) = fun _ => 0 := rfl

theorem replay_concat (postings : List (Account → Option α))
    (posting : Account → Option α) :
    replay (postings ++ [posting]) = post (replay postings) posting := by
  simp [replay]

theorem post_of_none {ledger : Account → α} {posting : Account → Option α}
    {account : Account} (unnamed : posting account = none) :
    post ledger posting account = ledger account := by
  simp [post, unnamed]

theorem post_of_some {ledger : Account → α} {posting : Account → Option α}
    {account : Account} {amount : α} (named : posting account = some amount) :
    post ledger posting account = clampAdd (ledger account) amount := by
  simp [post, named]

theorem replay_nonneg (postings : List (Account → Option α))
    (account : Account) : 0 ≤ replay postings account := by
  induction postings using List.reverseRecOn with
  | nil => exact le_refl _
  | append_singleton postings posting induction =>
      rw [replay_concat]
      cases named : posting account with
      | none => rwa [post_of_none named]
      | some amount =>
          rw [post_of_some named]
          exact clampAdd_nonneg _ _

end ShelterServer.Foundations
