import BuildQueue.Pass.Effect

/-!
# Sites

The place where passes run, as far as all of them share it: the store, the counters of the callers
and of the view caches, the log, and the current time. `Site.act` says what an action does to it.
-/

namespace BuildQueue

/-- The place where passes run. -/
structure Site where
  store : Store
  caller : Counters
  cache : Counters
  lines : List LogLine
  /-- The current time. -/
  now : Timestamp

namespace Site

/-- Counts for an account. -/
def countFor (site : Site) (account : Account) (counter : Counter) : Site :=
  match account with
  | .caller => { site with caller := site.caller.increment counter }
  | .cache => { site with cache := site.cache.increment counter }

/-- The counter that a method counts in. -/
def counterOf (method : Method) : Counter := if method.isWrite then .storeWrites else .storeReads

/-- Makes a call that reaches the store. -/
def callStore (site : Site) (account : Account) (call : Call) : call.Reply × Site :=
  let (result, store) := site.store.perform site.now call
  (result.mapError .store, { site.countFor account (counterOf call.method) with store })

/-- Makes a call that meets a fault if one is given: then it fails and does not reach the store. -/
def callWith (fault : Option String) (account : Account) (call : Call) (site : Site) :
    call.Reply × Site :=
  match fault with
  | some message => (.error (.other message), site)
  | none => site.callStore account call

/-- What an action gives, and the site after it, if a call through the guard meets the given
fault. -/
def act (fault : Option String) : (action : Action) → Site → action.Reply × Site
  | .call account call, site => site.callWith fault account call
  | .direct call, site => site.callStore .caller call
  | .time, site => (site.now, site)
  | .count counter, site => ((), site.countFor .caller counter)
  | .log level message, site => ((), { site with lines := site.lines ++ [⟨level, message, []⟩] })

end Site
end BuildQueue
