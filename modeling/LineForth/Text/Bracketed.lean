/-! # Lists in brackets -/

namespace LineForth.Text

/-- Written items between brackets, set apart by commas. -/
def bracketed (items : List String) : String := "[" ++ ", ".intercalate items ++ "]"

end LineForth.Text
