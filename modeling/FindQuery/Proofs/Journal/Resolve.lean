import FindQuery.Proofs.Journal.Attach
import FindQuery.Proofs.Journal.Dropped

/-! What a resolution leaves in the journal, and that the journal does not change its outcome. -/

namespace FindQuery.Journal

def parserCall : Call := ⟨parserName, parserComponent, .both⟩

section Parser
variable {j : Journal}

theorem isSome_cache_attachParser (j : Journal) :
    (j.attachParser.cache.get? parserCall.key).isSome = true := by
  cases hcached : j.cache.get? parserCall.key with
  | some full =>
    have hsame : j.attachParser = j := ask_of_cached (c := parserCall) (by rw [hcached]; rfl)
    rw [hsame, hcached]
    rfl
  | none =>
    have hopens : parserCall.opens j.filing = true := by
      cases j.filing
      · rfl
      · decide
    have hcache := cache_ask (c := parserCall) hcached
    rw [if_pos hopens] at hcache
    show ((j.ask parserCall).cache.get? parserCall.key).isSome = true
    rw [hcache, Entries.get?_put_self]
    rfl

theorem attachParser_attachParser (j : Journal) : j.attachParser.attachParser = j.attachParser :=
  ask_of_cached (c := parserCall) (isSome_cache_attachParser j)

end Parser

def summed (j : Journal) : Except ResolveError (Criteria × Text) → List Record
  | .ok (_, summary) => j.recorded criteriaName Level.debug summary
  | .error _ => []

section Resolution
variable [Host] {j : Journal} {stamp : Stamp} {r : Resolver} {query : Text} {params : Params}

def composed (r : Resolver) (params : Params) : Except ResolveError (Criteria × Text) :=
  Resolver.parse params >>= r.compose params

theorem ofParams_eq_composed (r : Resolver) (params : Params) :
    r.ofParams params = (composed r params).map Prod.fst := by
  rw [Resolver.ofParams, composed]
  cases Resolver.parse params with
  | error e => rfl
  | ok filters =>
    show (r.compose params filters >>= fun c => pure c.1) = (r.compose params filters).map Prod.fst
    cases r.compose params filters <;> rfl

theorem resolve_of_refused {cause : QueryError} (h : Query.parse query = .error cause) :
    j.resolve stamp r query = (j.attachParser, [], r.ofQuery query) := by
  simp only [resolve, h, Resolver.ofQuery]
  rfl

/-- A query that is read leaves a record for each condition that was dropped, and one more for the criteria
when it comes to any, as far as the levels let them through. Its outcome is that without a journal. -/
theorem resolve_of_parsed (h : Query.parse query = .ok params) :
    ∃ files, j.resolve stamp r query = ({ j.attachParser with files := files },
      ((Group.dropped Group.defaultOptions params).flatMap fun d =>
        j.attachParser.recorded (fullName parserName parserComponent) Level.debug d.message) ++
          j.attachParser.summed (composed r params),
      r.ofQuery query) := by
  have hanswer : r.ofQuery query = (composed r params).map Prod.fst := by
    rw [← ofParams_eq_composed, Resolver.ofQuery, h]
    rfl
  obtain ⟨files, hnotes⟩ := noteDropped_eq j.attachParser stamp
    (Group.dropped Group.defaultOptions params)
  simp only [hanswer, resolve, h, parse, attachParser_attachParser, hnotes]
  cases hfilters : Resolver.parse params with
  | error e =>
    have hcomposed : composed r params = .error e := by
      rw [composed, hfilters]
      rfl
    refine ⟨files, ?_⟩
    rw [hcomposed, summed, List.append_nil]
    rfl
  | ok filters =>
    have hcomposed : composed r params = r.compose params filters := by
      rw [composed, hfilters]
      rfl
    rw [hcomposed]
    cases hcompose : r.compose params filters with
    | error e =>
      refine ⟨files, ?_⟩
      simp only [hcompose, summed, List.append_nil]
      rfl
    | ok c =>
      obtain ⟨files', hrecord⟩ := record_eq { j.attachParser with files := files } stamp
        criteriaName Level.debug c.2
      refine ⟨files', ?_⟩
      simp only [hcompose, hrecord, summed, recorded, admits_files]
      rfl

end Resolution

end FindQuery.Journal
