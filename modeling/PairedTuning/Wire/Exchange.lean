import PairedTuning.Run
import PairedTuning.Wire.State

/-!
# Messages as documents

How reports, responses and tasks are written as documents, and read back.
-/

namespace PairedTuning

open Document

def Checksum.toDocument (c : UInt32) : Document := ofNat c.toNat

def Checksum.ofDocument? (d : Document) : Option UInt32 := (d.toNat? 32).map UInt32.ofNat

namespace Report

def fieldNames : List String := ["wins", "losses", "draws", "num_games", "sig"]

/-- A report is written with all its counts; no checksum is written as null. -/
def toDocument (r : Report) : Document :=
  obj
    [("wins", ofNat r.wins), ("losses", ofNat r.losses), ("draws", ofNat r.draws),
      ("num_games", ofNat r.games), ("sig", ofOption Checksum.toDocument r.signature)]

def ofDocument? (d : Document) : Option Report := do
  let fields ← d.record? fieldNames false
  let wins ← fields.required "wins" (toNat? 64)
  let losses ← fields.required "losses" (toNat? 64)
  let draws ← fields.defaulted "draws" 0 (toNat? 64)
  let games ← fields.required "num_games" (toNat? 64)
  let signature ← fields.optional "sig" Checksum.ofDocument?
  pure { wins, losses, draws, games, signature }

end Report

namespace WhiteParam

/-- A parameter of the first side is written with its move. -/
def toDocument (p : WhiteParam Float) : Document :=
  obj
    ([("name", str p.name), ("value", ofFloat p.value), ("c", ofFloat p.c),
      ("flip", p.flip.toDocument)] ++ present "gain" ofFloat p.gain)

def ofDocument? (d : Document) : Option (WhiteParam Float) := do
  let fields ← d.record? ["name", "value", "c", "flip", "gain"] false
  let name ← fields.required "name" toString?
  let value ← fields.required "value" toFloat?
  let c ← fields.required "c" toFloat?
  let flip ← fields.required "flip" Flip.ofDocument?
  let gain ← fields.optional "gain" toFloat?
  pure { name, value, c, flip, gain }

end WhiteParam

namespace BlackParam

/-- A parameter of the second side is written with its value alone. -/
def toDocument (p : BlackParam Float) : Document :=
  obj [("name", str p.name), ("value", ofFloat p.value)]

def ofDocument? (d : Document) : Option (BlackParam Float) := do
  let fields ← d.record? ["name", "value"] false
  let name ← fields.required "name" toString?
  let value ← fields.required "value" toFloat?
  pure { name, value }

end BlackParam

namespace Response

def fieldNames : List String := ["task_alive", "info", "w_params", "b_params", "sig"]

/-- A response is written without the reason and the checksum that it does not have. -/
def toDocument (r : Response Float) : Document :=
  obj
    ([("task_alive", bool r.taskAlive)] ++ present "info" str r.info ++
      [("w_params", ofList WhiteParam.toDocument r.white),
        ("b_params", ofList BlackParam.toDocument r.black)] ++
      present "sig" Checksum.toDocument r.signature)

def ofDocument? (d : Document) : Option (Response Float) := do
  let fields ← d.record? fieldNames false
  let taskAlive ← fields.required "task_alive" toBool?
  let info ← fields.optional "info" toString?
  let white ← fields.defaulted "w_params" [] (toList? WhiteParam.ofDocument?)
  let black ← fields.defaulted "b_params" [] (toList? BlackParam.ofDocument?)
  let signature ← fields.optional "sig" Checksum.ofDocument?
  pure { taskAlive, info, white, black, signature }

end Response

namespace Pending

def toDocument (p : Pending) : Document :=
  obj [("iter", ofNat p.iter), ("packed_flips", ofList (fun b => ofNat b.toNat) p.packed)]

def ofDocument? (d : Document) : Option Pending := do
  let fields ← d.record? ["iter", "packed_flips"] false
  let iter ← fields.required "iter" (toNat? 64)
  let packed ←
    fields.required "packed_flips" (toList? fun b => (b.toNat? 8).map UInt8.ofNat)
  pure { iter, packed }

end Pending

namespace Task

/-- A task is written without the worker and the perturbation that it does not have. -/
def toDocument (t : Task) : Document :=
  obj
    ([("active", bool t.active)] ++ present "worker" str t.worker ++
      present "spsa_params" Pending.toDocument t.pending)

def ofDocument? (d : Document) : Option Task := do
  let fields ← d.record? ["active", "worker", "spsa_params"] false
  let active ← fields.required "active" toBool?
  let worker ← fields.optional "worker" toString?
  let pending ← fields.optional "spsa_params" Pending.ofDocument?
  pure { active, worker, pending }

end Task

end PairedTuning
