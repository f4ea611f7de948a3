import DsSqlDps.Config.RoundTrip

namespace DsSqlDps

structure TokenRecord where
  flowId : String
  datasetId : String
deriving DecidableEq, Repr

/-- The live tokens, and how many tokens were drawn: `Uuid::new_v4` is a sequence of texts. -/
structure TokenStore where
  tokens : String → Option TokenRecord
  drawn : ℕ

namespace TokenStore

def empty : TokenStore := ⟨fun _ => none, 0⟩

def issue (uuid : ℕ → String) (s : TokenStore) (flowId datasetId : String) :
    String × TokenStore :=
  let token := uuid s.drawn
  (token, ⟨Function.update s.tokens token (some ⟨flowId, datasetId⟩), s.drawn + 1⟩)

def lookup (s : TokenStore) (token : String) : Option TokenRecord := s.tokens token

/-- Every token of the flow is dropped, any other is retained. -/
def revokeFlow (s : TokenStore) (flowId : String) : TokenStore :=
  { s with tokens := fun token => (s.tokens token).filter fun record => record.flowId ≠ flowId }

@[simp] theorem lookup_empty (token : String) : empty.lookup token = none := rfl

@[simp] theorem issue_fst (uuid : ℕ → String) (s : TokenStore) (f d : String) :
    (s.issue uuid f d).1 = uuid s.drawn := rfl

@[simp] theorem issue_drawn (uuid : ℕ → String) (s : TokenStore) (f d : String) :
    (s.issue uuid f d).2.drawn = s.drawn + 1 := rfl

theorem lookup_issue (uuid : ℕ → String) (s : TokenStore) (f d token : String) :
    (s.issue uuid f d).2.lookup token =
      if token = uuid s.drawn then some ⟨f, d⟩ else s.lookup token := by
  unfold issue lookup
  simp only [Function.update_apply]

@[simp] theorem revokeFlow_drawn (s : TokenStore) (f : String) :
    (s.revokeFlow f).drawn = s.drawn := rfl

theorem lookup_revokeFlow (s : TokenStore) (f token : String) :
    (s.revokeFlow f).lookup token = (s.lookup token).filter fun record => record.flowId ≠ f := rfl

end TokenStore
end DsSqlDps
