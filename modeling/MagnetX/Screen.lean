/-
# `MagnetX.Screen` — the screen the views are laid out for

`Extension/PixelExtension.swift` and the constants of `Common/Tools/XUtils.swift`.
Lengths are rationals; nothing in the app's own arithmetic leaves them.
-/
import Mathlib.Data.Rat.Floor

namespace MagnetX

/-- `UIScreen.main`, and the height of its status bar. -/
structure UIScreen where
  currentMode : Option (Nat × Nat)
  width : ℚ
  statusBarHeight : ℚ

namespace UIScreen

def IS_IPHONE5 (screen : UIScreen) : Bool := screen.currentMode == some (640, 1136)

def IS_IPHONE6 (screen : UIScreen) : Bool := screen.currentMode == some (750, 1334)

/-- `rpx`: a length of the design, on this screen. -/
def rpx (screen : UIScreen) (n : ℚ) : ℚ :=
  if screen.IS_IPHONE5 then n * (84 / 100)
  else if screen.IS_IPHONE6 then n
  else n * (1104 / 1000)

end UIScreen

/-- A screen to evaluate on. -/
def sampleScreen : UIScreen where
  currentMode := some (750, 1334)
  width := 375
  statusBarHeight := 20

def yl_navHeight : ℚ := 44

end MagnetX
