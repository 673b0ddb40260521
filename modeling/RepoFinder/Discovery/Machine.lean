import RepoFinder.Discovery.Engine

namespace RepoFinder.Discovery

structure Pool where
  state : State
  calls : List Call

inductive Action where
  | open (demand : Demand) (paths : List Path)
  | call (index : Nat)
  | refresh (index : Nat)
  | configure (choices : Marks.Choices)
  | invalidate
  | setClock (now : Time.Timestamp)
  | setFiles (files : FileSystem)

def execute (host : Host) (pool : Pool) : Action → Option Pool
  | .open demand paths => some { pool with calls := pool.calls ++ [.begun demand paths] }
  | .call index =>
    match pool.calls[index]? with
    | none => none
    | some call =>
      let (state, call) := call.step host pool.state
      some ⟨state, pool.calls.set index call⟩
  | .refresh index => (pool.state.stepRefresh host index).map fun state => { pool with state }
  | .configure choices => some { pool with state := pool.state.configure choices }
  | .invalidate => some { pool with state := (pool.state.invalidate host).1 }
  | .setClock now => some { pool with state := { pool.state with now } }
  | .setFiles files => some { pool with state := { pool.state with files } }

end RepoFinder.Discovery
