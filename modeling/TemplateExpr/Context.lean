import TemplateExpr.Function.Standard
import TemplateExpr.Settings
import TemplateExpr.Source
/-!
What expressions are compiled and evaluated under: limits on their length and their time, the digits of
quotients and powers, and the functions that they may call.
-/
namespace TemplateExpr

structure Context (σ : Type) where
  maxLength : Nat := 1024
  /-- In nanoseconds; 0 sets no limit. -/
  timeout : Option Nat := none
  math : MathSettings := {}
  registry : Registry σ := {}

namespace Context

variable {σ : Type}

def standard (clock : Timestamp) : Context σ where
  registry := Standard.registry clock

def lengthLimit (context : Context σ) : Nat := max context.maxLength Source.minLimit

def timeLimit (context : Context σ) : Option Nat := context.timeout.filter (0 < ·)

def apply (context : Context σ) (settings : Settings) : Context σ where
  maxLength := settings.maxLength.getD context.maxLength
  timeout := settings.timeout <|> context.timeout
  math :=
    { precision := settings.precision.getD context.math.precision
      rounding := settings.rounding.getD context.math.rounding }
  registry := context.registry

def applyText (context : Context σ) (text : String) : Context σ × List SettingError :=
  let (settings, errors) := Settings.ofText text
  (context.apply settings, errors)

end Context

end TemplateExpr
