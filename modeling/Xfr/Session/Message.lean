import Xfr.Library.Utf8
import Xfr.Report.Sample

open Utf8 (Text)

structure AuthChallenge where
  method : Text
  nonce  : Text
  deriving DecidableEq

-- The control messages, with what the two sides of a session look at.
inductive Message
  | hello (version : Text) (capabilities : Option (List Text)) (auth : Option AuthChallenge)
      (clientNonce : Option Text)
  | authResponse (response : Text)
  | authSuccess (serverProof : Option Text)
  | testStart (id : Text) (protocol : Protocol)
  | testAck (id : Text)
  | interval (id : Text)
  | result (id : Text)
  | cancel (id reason : Text)
  | cancelled (id : Text)
  | finish (id : Text)
  | pause (id : Text)
  | resume (id : Text)
  | error (message : Text)
  | dataHello (testId : Text)
  deriving DecidableEq

-- Messages are serialized by a library, each to one line. Text which is no message is refused.
structure Json where
  serialize   : Message → Option Text
  deserialize : Text → Option Message
