/-!
# Control operations

The numbers that console and graphics drivers give to their control operations.  The file system
passes them on and gives them no meaning.
-/

namespace VirtualFs.Control

/-- Go back to the cursor position that was saved. -/
def consoleRestoreCursor : UInt32 := 0

/-- Save the cursor position. -/
def consoleSaveCursor : UInt32 := 1

/-- Scroll the screen. -/
def consoleScroll : UInt32 := 2

/-- Set the colours. -/
def consoleSetColorScheme : UInt32 := 3

/-- Save the colours. -/
def consoleSaveColorScheme : UInt32 := 4

/-- Clear the screen. -/
def consoleClear : UInt32 := 5

/-- Flush the output buffer. -/
def consoleFlush : UInt32 := 6

/-- Draw one pixel. -/
def graphicsDrawPixel : UInt32 := 7

end VirtualFs.Control
