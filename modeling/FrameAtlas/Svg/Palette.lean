import FrameAtlas.Color

namespace FrameAtlas

inductive Palette where
  | light
  | dark
deriving DecidableEq, Repr

namespace Palette

def darkHex : Color → String
  | .frameIntra => "#ef5350"
  | .frameInter => "#42a5f5"
  | .frameBidir => "#66bb6a"
  | .frameUnknown => "#757575"
  | .levelBase => "#ffa726"
  | .level1 => "#ab47bc"
  | .level2 => "#26c6da"
  | .level3 => "#9ccc65"
  | .levelHigh => "#8d6e63"
  | .gopBoundary => "#ffd600"
  | .currentFrame | .cursor => "#ffffff"
  | .arrowDangling => "#9e9e9e"
  | .textPrimary => "#ececec"
  | .textSecondary | .textMuted => "#9e9e9e"
  | .background | .laneBackground => "#181818"
  | .minimapBackground | .thumbnailBackground => "#222222"
  | .minimapViewport => "#448aff"
  | .border | .laneBorder => "#303030"

def lightHex : Color → String
  | .frameIntra => "#e63946"
  | .frameInter => "#457b9d"
  | .frameBidir => "#2a9d8f"
  | .frameUnknown => "#adb5bd"
  | .levelBase => "#f4845f"
  | .level1 => "#8e44ad"
  | .level2 => "#0096c7"
  | .level3 => "#6a994e"
  | .levelHigh => "#7f5539"
  | .gopBoundary => "#e67e22"
  | .currentFrame | .cursor => "#1a1a2e"
  | .arrowDangling => "#999999"
  | .textPrimary => "#1a1a2e"
  | .textSecondary | .textMuted => "#666677"
  | .background | .laneBackground => "#f8f9fa"
  | .minimapBackground | .thumbnailBackground => "#e9ecef"
  | .minimapViewport => "#ffd60a"
  | .border | .laneBorder => "#dee2e6"

def hex : Palette → Color → String
  | dark, c => darkHex c
  | light, c => lightHex c

end Palette

end FrameAtlas
