import FrameAtlas.Frame

namespace FrameAtlas

inductive Color where
  | frameIntra | frameInter | frameBidir | frameUnknown
  | levelBase | level1 | level2 | level3 | levelHigh
  | gopBoundary | currentFrame | cursor | arrowDangling
  | laneBackground | laneBorder
  | textPrimary | textSecondary | textMuted
  | background | border
  | minimapBackground | minimapViewport
  | thumbnailBackground
deriving DecidableEq, Repr

namespace Color

def all : List Color :=
  [frameIntra, frameInter, frameBidir, frameUnknown, levelBase, level1, level2, level3, levelHigh,
   gopBoundary, currentFrame, cursor, arrowDangling, laneBackground, laneBorder, textPrimary,
   textSecondary, textMuted, background, border, minimapBackground, minimapViewport,
   thumbnailBackground]

def name : Color → String
  | frameIntra => "FrameIntra"
  | frameInter => "FrameInter"
  | frameBidir => "FrameBidir"
  | frameUnknown => "FrameUnknown"
  | levelBase => "LevelBase"
  | level1 => "Level1"
  | level2 => "Level2"
  | level3 => "Level3"
  | levelHigh => "LevelHigh"
  | gopBoundary => "GopBoundary"
  | currentFrame => "CurrentFrame"
  | cursor => "Cursor"
  | arrowDangling => "ArrowDangling"
  | laneBackground => "LaneBackground"
  | laneBorder => "LaneBorder"
  | textPrimary => "TextPrimary"
  | textSecondary => "TextSecondary"
  | textMuted => "TextMuted"
  | background => "Background"
  | border => "Border"
  | minimapBackground => "MinimapBackground"
  | minimapViewport => "MinimapViewport"
  | thumbnailBackground => "ThumbnailBackground"

def ofLevel (level : UInt32) : Color :=
  if level = 0 then levelBase
  else if level = 1 then level1
  else if level = 2 then level2
  else if level = 3 then level3
  else levelHigh

def ofKind : FrameKind → Color
  | .intra => frameIntra
  | .inter => frameInter
  | .bidirectional => frameBidir
  | .unknown => frameUnknown

theorem mem_all (c : Color) : c ∈ all := by cases c <;> decide

/-- Colors are told apart by their names. -/
theorem name_injective {a b : Color} (h : a.name = b.name) : a = b := by
  cases a <;> cases b <;> simp_all [name]

end Color

instance : Wire Color where
  encode c := .text c.name
  decode := decodeNamed Color.all Color.name

end FrameAtlas
