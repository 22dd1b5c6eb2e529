import Failover.Lookup
import Failover.Store.Basic

/-! # Why durable state was not read or written

A store that cannot be reached is told apart from a record that cannot be understood: the first may
pass, the second stays until the record is replaced. -/

namespace Failover

/-- A `FormatFault` is what is wrong with a stored record. -/
inductive FormatFault where
  | unreadable (cause : SerializerError)
  /-- What was about to be written cannot be read back. -/
  | selfCheck (cause : SerializerError)
  /-- The record is of another object than its path says. -/
  | holds (r : ObjectRef)
deriving DecidableEq, Repr

/-- The text of a `FormatFault`. -/
def FormatFault.message : FormatFault → String
  | .unreadable cause => cause.message
  | .selfCheck cause => "write self-check failed: " ++ cause.message
  | .holds r => "holds " ++ r.text

/-- A `PersistenceError` is why durable state was not read or written. -/
inductive PersistenceError where
  /-- The store could not be read or written. -/
  | io (path : String) (cause : StoreError)
  /-- A stored record could not be understood. -/
  | format (path : String) (fault : FormatFault)
  | timeout (limit : Duration)
  | stopped
  | notPrepared (store : String)
deriving DecidableEq, Repr

namespace PersistenceError

/-- The text of a `PersistenceError`. -/
def message : PersistenceError → String
  | .io path cause => "persistence io error at " ++ path ++ ": " ++ cause.message
  | .format path fault => "persistence format error at " ++ path ++ ": " ++ fault.message
  | .timeout limit => "timed out after " ++ limit.text ++ " waiting for writes to complete"
  | .stopped => "persister has been stopped"
  | .notPrepared store => "store not prepared for use: " ++ store

/-- The `PersistenceError` of an access at a path that the store refused. -/
def ofStore (path : String) : StoreError → PersistenceError
  | .notPrepared store | .closed store => .notPrepared store
  | cause => .io path cause

/-- Whether the error is `format`: a stored record could not be understood. -/
def isFormat : PersistenceError → Bool
  | .format .. => true
  | _ => false

end PersistenceError

end Failover
