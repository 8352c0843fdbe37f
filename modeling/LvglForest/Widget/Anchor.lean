import LvglForest.Value.Basic

/-!
# Anchors

Where a widget sits inside its parent: left, centre or right, and top, centre or bottom. Each of the
nine pairs has an alignment keyword. There are keywords without a pair, which are kept as they are.
-/

namespace LvglForest

/-- The three places across. -/
inductive HorizontalAnchor where
  | left
  | center
  | right
  deriving DecidableEq

/-- The three places from top to bottom. -/
inductive VerticalAnchor where
  | top
  | center
  | bottom
  deriving DecidableEq

/-- A place inside the parent. -/
structure Anchor where
  horizontal : HorizontalAnchor
  vertical : VerticalAnchor
  deriving DecidableEq

/-- The name of a place across. -/
def HorizontalAnchor.name : HorizontalAnchor → Text
  | left => "left"
  | center => "center"
  | right => "right"

/-- The name of a place from top to bottom. -/
def VerticalAnchor.name : VerticalAnchor → Text
  | top => "top"
  | center => "center"
  | bottom => "bottom"

namespace Anchor

/-- The nine anchors. -/
def all : List Anchor :=
  [⟨.left, .top⟩, ⟨.center, .top⟩, ⟨.right, .top⟩, ⟨.left, .center⟩, ⟨.center, .center⟩,
    ⟨.right, .center⟩, ⟨.left, .bottom⟩, ⟨.center, .bottom⟩, ⟨.right, .bottom⟩]

/-- The alignment keyword of an anchor. -/
def keyword : Anchor → Text
  | ⟨.left, .top⟩ => "LV_ALIGN_TOP_LEFT"
  | ⟨.center, .top⟩ => "LV_ALIGN_TOP_MID"
  | ⟨.right, .top⟩ => "LV_ALIGN_TOP_RIGHT"
  | ⟨.left, .center⟩ => "LV_ALIGN_LEFT_MID"
  | ⟨.center, .center⟩ => "LV_ALIGN_CENTER"
  | ⟨.right, .center⟩ => "LV_ALIGN_RIGHT_MID"
  | ⟨.left, .bottom⟩ => "LV_ALIGN_BOTTOM_LEFT"
  | ⟨.center, .bottom⟩ => "LV_ALIGN_BOTTOM_MID"
  | ⟨.right, .bottom⟩ => "LV_ALIGN_BOTTOM_RIGHT"

/-- The centre of the parent. -/
def middle : Anchor := ⟨.center, .center⟩

/-- The corner that is taken where no anchor is known. -/
def corner : Anchor := ⟨.left, .top⟩

/-- The anchor of a keyword. -/
def ofKeyword? (t : Text) : Option Anchor := all.find? (·.keyword = t)

/-- The anchor with the given names. -/
def ofNames? (horizontal vertical : Value) : Option Anchor :=
  all.find? fun a => horizontal.isText a.horizontal.name && vertical.isText a.vertical.name

end Anchor

end LvglForest
