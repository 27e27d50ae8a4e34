import AgenticDynamics.Control.ControlDb

/-!
# Projection watermarks

The table of the projections' watermarks and the one method that writes it.
-/

namespace AgenticDynamics.Control

open Python Script

structure ProjectionWatermark where
  projection : String
  lastEventId : String
  sourceHeadEventId : String
  lagEvents : Option ℤ
  lastSuccessAt : String
  lastError : String
  deriving DecidableEq

/-- `projection_watermarks`. -/
abbrev WatermarkTable := List ProjectionWatermark

namespace WatermarkTable

def getWatermark (projection : String) (table : WatermarkTable) : Option ProjectionWatermark :=
  table.find? fun w => w.projection = projection

/-- `INSERT … ON CONFLICT(projection) DO UPDATE`. -/
def upsert (w : ProjectionWatermark) (table : WatermarkTable) : WatermarkTable :=
  if (table.getWatermark w.projection).isSome then
    table.map fun old => if old.projection = w.projection then w else old
  else table ++ [w]

end WatermarkTable

structure RecordWatermark where
  projection : String
  lastEventId : String := ""
  sourceHeadEventId : String := ""
  lagEvents : Option ℤ := none
  lastSuccessAt : Option String := none
  lastError : String := ""

/-- `last_success_at`: the clock stands in for it, unless the update carries an error. -/
def RecordWatermark.successStamp {σ : Type} (a : RecordWatermark) : Script DbError σ String :=
  match a.lastSuccessAt with
  | some stamp => pure stamp
  | none       => if a.lastError = "" then draw else pure ""

/-- The transaction block of `record_watermark`: without a stamp the old one stays. -/
def watermarkBlock (a : RecordWatermark) (name stamp : String) :
    Script DbError WatermarkTable Unit := do
  let existing ← query (WatermarkTable.getWatermark name)
  let kept := match existing with
    | some w => if stamp = "" then w.lastSuccessAt else stamp
    | none   => stamp
  execute fun table => .ok (table.upsert
    ⟨name, a.lastEventId, a.sourceHeadEventId, a.lagEvents, kept, a.lastError⟩)

def recordWatermark (a : RecordWatermark) : Script DbError WatermarkTable ProjectionWatermark := do
  requireWritable .readOnlyControlDB
  let name ← lift (require a.projection "projection")
  let stamp ← a.successStamp
  let _ ← transaction .readOnlyControlDB (watermarkBlock a name stamp)
  match ← query (WatermarkTable.getWatermark name) with
  | some w => pure w
  | none   => raise .assertion

end AgenticDynamics.Control
