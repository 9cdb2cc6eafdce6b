import Symbology.Raster.Basic

namespace Symbology.Raster

structure Point where
  x : Int
  y : Int
  deriving DecidableEq, Repr

/-- The way between two points: how far it goes in either direction, `down` counted negatively,
and the sign of each step. -/
structure Way where
  across : Int
  down : Int
  stepX : Int
  stepY : Int
  deriving DecidableEq, Repr

def Way.between (p q : Point) : Way where
  across := ((q.x - p.x).natAbs : Int)
  down := -((q.y - p.y).natAbs : Int)
  stepX := if p.x < q.x then 1 else -1
  stepY := if p.y < q.y then 1 else -1

structure Stand where
  point : Point
  balance : Int
  deriving DecidableEq, Repr

def Way.step (w : Way) (s : Stand) : Stand :=
  let twice := 2 * s.balance
  let inX := w.down ≤ twice
  let inY := twice ≤ w.across
  { point :=
      { x := if inX then s.point.x + w.stepX else s.point.x
        y := if inY then s.point.y + w.stepY else s.point.y }
    balance := s.balance + (if inX then w.down else 0) + (if inY then w.across else 0) }

def Way.walk (w : Way) (target : Point) : Nat → Stand → List Point
  | 0, s => [s.point]
  | n + 1, s =>
      if s.point = target then [s.point] else s.point :: w.walk target n (w.step s)

def points (p q : Point) : List Point :=
  let w := Way.between p q
  w.walk q ((q.x - p.x).natAbs + (q.y - p.y).natAbs) { point := p, balance := w.across + w.down }

def penOffsets (thickness : Nat) : List Int :=
  let width := max thickness 1
  (List.range width).map fun (i : Nat) => (i : Int) - ((width - 1) / 2 : Nat)

def stamp (offsets : List Int) (c : Rgba) (image : Raster) (p : Point) : Raster :=
  offsets.foldl (fun image dy =>
    offsets.foldl (fun image dx => image.put (p.x + dx) (p.y + dy) c) image) image

def drawLine (image : Raster) (p q : Point) (thickness : Nat) (c : Rgba) : Raster :=
  (points p q).foldl (stamp (penOffsets thickness) c) image

end Symbology.Raster
