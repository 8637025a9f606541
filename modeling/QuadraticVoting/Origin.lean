import QuadraticVoting.Fault

/-!
# Origins

Who a call comes from: the root authority or an account that signed it. A caller may also build an
origin that is neither, or both; each check says which of the two it looks at first.
-/

namespace QuadraticVoting

structure Origin where
  account : Account
  isRoot : Bool
deriving DecidableEq, Inhabited

namespace Origin

def root : Origin := ⟨.absent, true⟩

def signed (account : Account) : Except Fault Origin :=
  if account.isGiven then .ok ⟨account, false⟩ else .error .signerRequired

/-- The signing account; root has none, even when it carries one. -/
def signer (o : Origin) : Except Fault Account :=
  if o.isRoot || !o.account.isGiven then .error .unsigned else .ok o.account

/-- Root may act for anyone, an account for itself. -/
def requireFor (o : Origin) (who : Account) : Except Fault Unit :=
  if o.isRoot || o.account = who then .ok () else .error (.cannotActFor o.account who)

def describe (o : Origin) : Text :=
  if o.isRoot then "root" else "signed(" ++ o.account.quoted ++ ")"

theorem signer_eq_ok_iff {o : Origin} {a : Account} :
    o.signer = .ok a ↔ o.isRoot = false ∧ o.account = a ∧ a.isGiven = true := by
  unfold signer
  cases o.isRoot <;> cases hg : o.account.isGiven <;> simp_all
  · rintro rfl; exact hg
  · rintro rfl; exact hg

end Origin

end QuadraticVoting
